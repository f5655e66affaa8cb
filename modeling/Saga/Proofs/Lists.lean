import Mathlib.Data.List.Count
import Mathlib.Data.List.Perm.Basic
import Mathlib.Tactic.Lemma

/-!
# Lists

Items of a list by their kinds and by their places.
-/

namespace Saga

variable {α β : Type}

/-! ## By kinds -/

/-- Lists are permutations of each other if their items of each kind are the same in the same order.
-/
lemma perm_of_filter_eq [DecidableEq β] {kind : α → β} {l l' : List α}
    (h : ∀ b, l.filter (fun a => kind a = b) = l'.filter (fun a => kind a = b)) : l.Perm l' := by
  classical
  refine List.perm_iff_count.2 fun a => ?_
  have hkind : decide (kind a = kind a) = true := by simp
  rw [← List.count_filter (l := l) (p := fun x => decide (kind x = kind a)) hkind, h (kind a),
    List.count_filter (l := l') (p := fun x => decide (kind x = kind a)) hkind]

/-- A choice of items that are all the same is the same in every order. -/
lemma filter_eq_of_perm {l l' : List α} (hperm : l.Perm l') {p : α → Bool}
    (hsame : ∀ a ∈ l, ∀ a' ∈ l, p a = true → p a' = true → a = a') : l.filter p = l'.filter p := by
  have hchosen := hperm.filter p
  cases hl : l.filter p with
  | nil =>
    rw [hl] at hchosen
    exact hchosen.nil_eq
  | cons a rest =>
    have ha : a ∈ l ∧ p a = true := by
      rw [← List.mem_filter, hl]
      exact List.mem_cons_self
    have hall : l.filter p = List.replicate (l.filter p).length a := by
      refine List.eq_replicate_iff.2 ⟨rfl, fun a' ha' => ?_⟩
      obtain ⟨hmem, hp⟩ := List.mem_filter.1 ha'
      exact hsame a' hmem a ha.1 hp ha.2
    rw [← hl, hall]
    rw [hall] at hchosen
    exact (List.replicate_perm.1 hchosen)

/-- Only one item of a list is of a kind that is counted at most once. -/
lemma index_eq_of_countP_le_one {p : α → Bool} {l : List α}
    (h : l.countP p ≤ 1) {i j : Nat} {a b : α} (hi : l[i]? = some a) (hj : l[j]? = some b)
    (ha : p a = true) (hb : p b = true) : i = j := by
  induction l generalizing i j with
  | nil => cases hi
  | cons c rest ih =>
    -- If the first item is of the kind, none of the rest is.
    have hnone : ∀ {k : Nat} {x : α}, p c = true → rest[k]? = some x → p x ≠ true := by
      intro k x hc hk hx
      have hrest : rest.countP p = 0 := by
        rw [List.countP_cons_of_pos hc] at h
        omega
      exact List.countP_eq_zero.1 hrest x (List.mem_of_getElem? hk) hx
    cases i with
    | zero =>
      cases j with
      | zero => rfl
      | succ j =>
        cases hi
        exact absurd hb (hnone ha hj)
    | succ i =>
      cases j with
      | zero =>
        cases hj
        exact absurd ha (hnone hb hi)
      | succ j =>
        have hrest : rest.countP p ≤ 1 := by
          rw [List.countP_cons] at h
          omega
        exact congrArg Nat.succ (ih hrest hi hj)

/-! ## By places -/

/-- What stands in a list after one place was changed. -/
lemma getElem?_set_cases {l : List α} {i j : Nat} {a b : α}
    (h : (l.set i a)[j]? = some b) : (j = i ∧ b = a) ∨ (j ≠ i ∧ l[j]? = some b) := by
  rw [List.getElem?_set] at h
  split at h
  · next hij =>
    split at h
    · cases h
      exact .inl ⟨hij.symm, rfl⟩
    · cases h
  · next hij => exact .inr ⟨fun heq => hij heq.symm, h⟩

/-- What stands in a list with one more place at its end. -/
lemma getElem?_concat_cases {l : List α} {j : Nat} {a b : α}
    (h : (l ++ [a])[j]? = some b) : l[j]? = some b ∨ (j = l.length ∧ b = a) := by
  rw [List.getElem?_append] at h
  split at h
  · exact .inl h
  · next hlength =>
    have hbound : j - l.length < 1 := by
      simpa using (List.getElem?_eq_some_iff.1 h).1
    have hj : j = l.length := by omega
    subst hj
    refine .inr ⟨rfl, ?_⟩
    simpa using h.symm

/-- After a place was set, an item is what it was, unless the place was its own. -/
lemma getElem?_set_of {l : List α} {i j : Nat} {a b c : α} (hi : l[i]? = some a)
    (hj : l[j]? = some b) :
    (j = i ∧ b = a ∧ (l.set j c)[i]? = some c) ∨ (l.set j c)[i]? = some a := by
  by_cases hij : j = i
  · subst hij
    cases hi.symm.trans hj
    exact .inl ⟨rfl, rfl, List.getElem?_set_self (List.getElem?_eq_some_iff.1 hi).1⟩
  · exact .inr ((List.getElem?_set_ne hij).trans hi)

end Saga
