import Mathlib.Order.MinMax
import Mathlib.Tactic.ByContra
import Saga.Proofs.Json.Grammar

/-!
# Canonical values

The keys of a canonical value ascend in each of its objects (`ascending_canonical`). Fields whose
keys are different have one ascending order (`sortFields_of_perm`), so a value whose keys ascend is
the canonical form of itself and of every value that has the same fields in another order
(`Reordered.canonical`).
-/

namespace Saga.Json

/-! ## Fields in order -/

/-- Whether the keys of fields ascend. -/
def InOrder (fields : List (String × Json)) : Prop := fields.Pairwise fun e e' => e.1 < e'.1

variable {key : String} {v : Json} {fields fields' : List (String × Json)} {e : String × Json}

/-- The fields after a put are the new one and those from before. -/
lemma mem_putField (h : e ∈ putField key v fields) : e = (key, v) ∨ e ∈ fields := by
  induction fields with
  | nil => exact .inl (List.mem_singleton.1 h)
  | cons first rest ih =>
    obtain ⟨k, w⟩ := first
    unfold putField at h
    split at h
    · exact List.mem_cons.1 h
    · split at h
      · exact (List.mem_cons.1 h).imp_right (List.mem_cons_of_mem _)
      · rcases List.mem_cons.1 h with rfl | hmem
        · exact .inr List.mem_cons_self
        · exact (ih hmem).imp_right (List.mem_cons_of_mem _)

/-- A put keeps fields in order. -/
lemma InOrder.putField (h : InOrder fields) (key : String) (v : Json) :
    InOrder (putField key v fields) := by
  induction fields with
  | nil => exact List.pairwise_singleton _ _
  | cons first rest ih =>
    obtain ⟨k, w⟩ := first
    obtain ⟨hfirst, hrest⟩ := List.pairwise_cons.1 h
    unfold Json.putField
    split
    · next hlt =>
      refine List.pairwise_cons.2 ⟨fun e he => ?_, h⟩
      rcases List.mem_cons.1 he with rfl | hmem
      · exact hlt
      · exact String.lt_trans hlt (hfirst e hmem)
    · next hge =>
      split
      · next heq =>
        subst heq
        exact List.pairwise_cons.2 ⟨hfirst, hrest⟩
      · next hne =>
        have hlt : k < key := by
          by_contra hnot
          exact hne (String.le_antisymm (String.not_lt.1 hnot) (String.not_lt.1 hge))
        refine List.pairwise_cons.2 ⟨fun e he => ?_, ih hrest⟩
        rcases mem_putField he with rfl | hmem
        · exact hlt
        · exact hfirst e hmem

/-- A field with a new key is put in between. -/
lemma putField_perm (hkey : key ∉ fields.map Prod.fst) :
    (putField key v fields).Perm ((key, v) :: fields) := by
  induction fields with
  | nil => exact .refl _
  | cons first rest ih =>
    obtain ⟨k, w⟩ := first
    rw [List.map_cons, List.mem_cons, not_or] at hkey
    unfold putField
    split
    · exact .refl _
    · rw [if_neg hkey.1]
      exact ((ih hkey.2).cons (k, w)).trans (.swap _ _ _)

/-- Sorting adds no fields. -/
lemma mem_sortFields (h : e ∈ sortFields fields) : e ∈ fields := by
  have hfold : ∀ acc : List (String × Json),
      e ∈ fields.foldl (fun acc e => putField e.1 e.2 acc) acc → e ∈ acc ∨ e ∈ fields := by
    clear h
    induction fields with
    | nil => exact fun acc => .inl
    | cons first rest ih =>
      intro acc h
      rcases ih _ h with hacc | hrest
      · rcases mem_putField hacc with rfl | hmem
        · exact .inr List.mem_cons_self
        · exact .inl hmem
      · exact .inr (List.mem_cons_of_mem _ hrest)
  exact (hfold [] h).resolve_left List.not_mem_nil

/-- Sorted fields are in order. -/
lemma inOrder_sortFields (fields : List (String × Json)) : InOrder (sortFields fields) := by
  have hfold : ∀ acc : List (String × Json), InOrder acc →
      InOrder (fields.foldl (fun acc e => putField e.1 e.2 acc) acc) := by
    induction fields with
    | nil => exact fun acc => id
    | cons first rest ih => exact fun acc h => ih _ (h.putField first.1 first.2)
  exact hfold [] .nil

/-- Fields whose keys are different are sorted without loss. -/
lemma sortFields_perm (h : (fields.map Prod.fst).Nodup) : (sortFields fields).Perm fields := by
  have hfold : ∀ acc : List (String × Json), ((acc ++ fields).map Prod.fst).Nodup →
      (fields.foldl (fun acc e => putField e.1 e.2 acc) acc).Perm (acc ++ fields) := by
    clear h
    induction fields with
    | nil => exact fun acc _ => .of_eq (List.append_nil acc).symm
    | cons first rest ih =>
      intro acc h
      have hmiddle : (acc ++ first :: rest).Perm (first :: (acc ++ rest)) := List.perm_middle
      have hcons := (hmiddle.map Prod.fst).nodup_iff.1 h
      rw [List.map_cons, List.nodup_cons, List.map_append, List.mem_append, not_or] at hcons
      have hput : (putField first.1 first.2 acc ++ rest).Perm (first :: (acc ++ rest)) :=
        (putField_perm hcons.1.1).append_right rest
      refine (ih _ ?_).trans (hput.trans hmiddle.symm)
      exact ((hput.trans hmiddle.symm).map Prod.fst).nodup_iff.2 h
  exact hfold [] h

/-- Fields in order have distinct keys. -/
lemma InOrder.nodup_keys (h : InOrder fields) : (fields.map Prod.fst).Nodup := by
  rw [List.Nodup, List.pairwise_map]
  exact h.imp fun hlt => String.ne_of_lt hlt

/-- Fields have one ascending order. -/
lemma sortFields_of_perm (h : InOrder fields) (hperm : fields'.Perm fields) :
    sortFields fields' = fields := by
  have hnodup : (fields'.map Prod.fst).Nodup := (hperm.map Prod.fst).nodup_iff.2 h.nodup_keys
  refine ((sortFields_perm hnodup).trans hperm).eq_of_pairwise ?_ (inOrder_sortFields fields') h
  intro e e' _ _ hlt hgt
  exact absurd hgt (String.lt_asymm hlt)

/-! ## Values in order -/

mutual

/-- Whether the keys ascend in every object of a value. -/
def Ascending : Json → Prop
  | arr items => AscendingItems items
  | obj fields => InOrder fields ∧ AscendingFields fields
  | null | bool _ | int _ | real _ | str _ | unreadable => True

/-- Whether the keys ascend in all of some values. -/
def AscendingItems : List Json → Prop
  | [] => True
  | v :: rest => Ascending v ∧ AscendingItems rest

/-- Whether the keys ascend in the values of all fields. -/
def AscendingFields : List (String × Json) → Prop
  | [] => True
  | (_, v) :: rest => Ascending v ∧ AscendingFields rest

end

/-- Fields are exact if the value of each is. -/
lemma exactFields_iff : ExactFields fields ↔ ∀ e ∈ fields, Exact e.2 := by
  induction fields with
  | nil => simp [ExactFields]
  | cons first rest ih => simp [ExactFields, ih]

/-- Fields ascend inside if the value of each does. -/
lemma ascendingFields_iff : AscendingFields fields ↔ ∀ e ∈ fields, Ascending e.2 := by
  induction fields with
  | nil => simp [AscendingFields]
  | cons first rest ih => simp [AscendingFields, ih]

/-- Fields are as deep as the deepest value among them. -/
lemma depthOfFields_le_iff {n : Nat} :
    depthOfFields fields ≤ n ↔ ∀ e ∈ fields, depthOf e.2 ≤ n := by
  induction fields with
  | nil => simp [depthOfFields]
  | cons first rest ih => simp [depthOfFields, ih]

mutual

/-- The keys of a canonical value ascend. -/
theorem ascending_canonical : ∀ v : Json, Ascending (canonical v)
  | .arr items => ascending_canonicalItems items
  | .obj fields =>
    ⟨inOrder_sortFields _, ascendingFields_iff.2 fun e he =>
      ascendingFields_iff.1 (ascending_canonicalFields fields) e (mem_sortFields he)⟩
  | .null | .bool _ | .int _ | .real _ | .str _ | .unreadable => trivial

/-- The items of a canonical value ascend inside. -/
theorem ascending_canonicalItems : ∀ items : List Json, AscendingItems (canonicalItems items)
  | [] => trivial
  | v :: rest => ⟨ascending_canonical v, ascending_canonicalItems rest⟩

/-- The fields of a canonical value ascend inside. -/
theorem ascending_canonicalFields : ∀ fields : List (String × Json),
    AscendingFields (canonicalFields fields)
  | [] => trivial
  | (_, v) :: rest => ⟨ascending_canonical v, ascending_canonicalFields rest⟩

end

mutual

/-- The canonical form of an exact value is exact. -/
theorem Exact.canonical : ∀ {v : Json}, Exact v → Exact (canonical v)
  | .arr _, h => ExactItems.canonical h
  | .obj _, h => exactFields_iff.2 fun e he =>
      exactFields_iff.1 (ExactFields.canonical h) e (mem_sortFields he)
  | .null, _ | .bool _, _ | .str _, _ => trivial
  | .int _, h => h
  | .real _, h | .unreadable, h => h.elim

/-- The canonical forms of exact items are exact. -/
theorem ExactItems.canonical : ∀ {items : List Json}, ExactItems items →
    ExactItems (canonicalItems items)
  | [], _ => trivial
  | _ :: _, ⟨hv, hrest⟩ => ⟨hv.canonical, ExactItems.canonical hrest⟩

/-- The canonical forms of exact fields are exact. -/
theorem ExactFields.canonical : ∀ {fields : List (String × Json)}, ExactFields fields →
    ExactFields (canonicalFields fields)
  | [], _ => trivial
  | (_, _) :: _, ⟨hv, hrest⟩ => ⟨hv.canonical, ExactFields.canonical hrest⟩

end

mutual

/-- The canonical form of a value is no deeper than the value. -/
theorem depthOf_canonical_le : ∀ v : Json, depthOf (canonical v) ≤ depthOf v
  | .arr items => Nat.add_le_add_right (depthOfItems_canonicalItems_le items) 1
  | .obj fields => Nat.add_le_add_right (depthOfFields_le_iff.2 fun e he =>
      depthOfFields_le_iff.1 (depthOfFields_canonicalFields_le fields) e (mem_sortFields he)) 1
  | .null | .bool _ | .int _ | .real _ | .str _ | .unreadable => Nat.le_refl _

/-- The canonical forms of items are no deeper than the items. -/
theorem depthOfItems_canonicalItems_le : ∀ items : List Json,
    depthOfItems (canonicalItems items) ≤ depthOfItems items
  | [] => Nat.le_refl _
  | v :: rest => max_le_max (depthOf_canonical_le v) (depthOfItems_canonicalItems_le rest)

/-- The canonical forms of fields are no deeper than the fields. -/
theorem depthOfFields_canonicalFields_le : ∀ fields : List (String × Json),
    depthOfFields (canonicalFields fields) ≤ depthOfFields fields
  | [] => Nat.le_refl _
  | (_, v) :: rest => max_le_max (depthOf_canonical_le v) (depthOfFields_canonicalFields_le rest)

end

/-! ## Other orders -/

mutual

/-- Whether two values differ at most in the order of fields. -/
inductive Reordered : Json → Json → Prop where
  | refl (v : Json) : Reordered v v
  | arr {items items'} : ReorderedItems items items' → Reordered (.arr items) (.arr items')
  | obj {fields fields' fields''} :
    ReorderedFields fields fields' → fields''.Perm fields' → Reordered (.obj fields) (.obj fields'')

/-- Whether items differ at most in the order of fields. -/
inductive ReorderedItems : List Json → List Json → Prop where
  | nil : ReorderedItems [] []
  | cons {v v' items items'} :
    Reordered v v' → ReorderedItems items items' → ReorderedItems (v :: items) (v' :: items')

/-- Whether the values of fields with the same keys differ at most in the order of fields. -/
inductive ReorderedFields : List (String × Json) → List (String × Json) → Prop where
  | nil : ReorderedFields [] []
  | cons {v v' fields fields'} (key : String) :
    Reordered v v' → ReorderedFields fields fields' →
    ReorderedFields ((key, v) :: fields) ((key, v') :: fields')

end

/-- Fields are made canonical one by one, each under its key. -/
lemma canonicalFields_eq_map (fields : List (String × Json)) :
    canonicalFields fields = fields.map fun e => (e.1, canonical e.2) := by
  induction fields with
  | nil => rfl
  | cons first rest ih => rw [canonicalFields, ih, List.map_cons]

mutual

/-- A value whose keys ascend is canonical. -/
theorem Ascending.canonical_eq : ∀ {v : Json}, Ascending v → canonical v = v
  | .arr _, h => congrArg arr (AscendingItems.canonical_eq h)
  | .obj fields, ⟨horder, hfields⟩ => by
    rw [canonical, AscendingFields.canonical_eq hfields, sortFields_of_perm horder (.refl fields)]
  | .null, _ | .bool _, _ | .int _, _ | .real _, _ | .str _, _ | .unreadable, _ => rfl

/-- Items that ascend inside are canonical. -/
theorem AscendingItems.canonical_eq : ∀ {items : List Json}, AscendingItems items →
    canonicalItems items = items
  | [], _ => rfl
  | _ :: _, ⟨hv, hrest⟩ => by
    rw [canonicalItems, hv.canonical_eq, AscendingItems.canonical_eq hrest]

/-- Fields that ascend inside are canonical. -/
theorem AscendingFields.canonical_eq : ∀ {fields : List (String × Json)}, AscendingFields fields →
    canonicalFields fields = fields
  | [], _ => rfl
  | (_, _) :: _, ⟨hv, hrest⟩ => by
    rw [canonicalFields, hv.canonical_eq, AscendingFields.canonical_eq hrest]

end

mutual

/-- The order of the fields does not matter for the canonical form. -/
theorem Reordered.canonical {v v' : Json} : Reordered v v' → Ascending v → canonical v' = v
  | .refl _, h => h.canonical_eq
  | .arr hitems, h => congrArg arr (hitems.canonical h)
  | @Reordered.obj _ fields' fields'' hfields hperm, ⟨horder, h⟩ => by
    have hcanonical : (canonicalFields fields'').Perm (canonicalFields fields') := by
      rw [canonicalFields_eq_map, canonicalFields_eq_map]
      exact hperm.map _
    rw [hfields.canonical h] at hcanonical
    rw [Json.canonical, sortFields_of_perm horder hcanonical]

/-- Reordering inside some items is undone by their canonical forms. -/
theorem ReorderedItems.canonical {items items' : List Json} :
    ReorderedItems items items' → AscendingItems items → canonicalItems items' = items
  | .nil, _ => rfl
  | .cons hv hitems, ⟨h, hrest⟩ => by rw [canonicalItems, hv.canonical h, hitems.canonical hrest]

/-- Reordering inside some fields is undone by their canonical forms. -/
theorem ReorderedFields.canonical {fields fields' : List (String × Json)} :
    ReorderedFields fields fields' → AscendingFields fields → canonicalFields fields' = fields
  | .nil, _ => rfl
  | .cons _ hv hfields, ⟨h, hrest⟩ => by
    rw [canonicalFields, hv.canonical h, hfields.canonical hrest]

end

mutual

/-- A reordered value is as exact as it was. -/
theorem Reordered.exact {v v' : Json} : Reordered v v' → Exact v → Exact v'
  | .refl _, h => h
  | .arr hitems, h => hitems.exact h
  | .obj hfields hperm, h => exactFields_iff.2 fun e he =>
      exactFields_iff.1 (hfields.exact h) e (hperm.mem_iff.1 he)

/-- Reordered items are as exact as they were. -/
theorem ReorderedItems.exact {items items' : List Json} :
    ReorderedItems items items' → ExactItems items → ExactItems items'
  | .nil, h => h
  | .cons hv hitems, ⟨h, hrest⟩ => ⟨hv.exact h, hitems.exact hrest⟩

/-- Reordered fields are as exact as they were. -/
theorem ReorderedFields.exact {fields fields' : List (String × Json)} :
    ReorderedFields fields fields' → ExactFields fields → ExactFields fields'
  | .nil, h => h
  | .cons _ hv hfields, ⟨h, hrest⟩ => ⟨hv.exact h, hfields.exact hrest⟩

end

mutual

/-- A reordered value is no deeper than it was. -/
theorem Reordered.depthOf_le {v v' : Json} : Reordered v v' → depthOf v' ≤ depthOf v
  | .refl _ => Nat.le_refl _
  | .arr hitems => Nat.add_le_add_right hitems.depthOf_le 1
  | .obj hfields hperm => Nat.add_le_add_right (depthOfFields_le_iff.2 fun e he =>
      depthOfFields_le_iff.1 hfields.depthOf_le e (hperm.mem_iff.1 he)) 1

/-- Reordered items are no deeper than they were. -/
theorem ReorderedItems.depthOf_le {items items' : List Json} :
    ReorderedItems items items' → depthOfItems items' ≤ depthOfItems items
  | .nil => Nat.le_refl _
  | .cons hv hitems => max_le_max hv.depthOf_le hitems.depthOf_le

/-- Reordered fields are no deeper than they were. -/
theorem ReorderedFields.depthOf_le {fields fields' : List (String × Json)} :
    ReorderedFields fields fields' → depthOfFields fields' ≤ depthOfFields fields
  | .nil => Nat.le_refl _
  | .cons _ hv hfields => max_le_max hv.depthOf_le hfields.depthOf_le

end

mutual

/-- The readers of values take all that is exact. -/
theorem Exact.isDefinite : ∀ {v : Json}, Exact v → isDefinite v = true
  | .arr _, h => ExactItems.isDefinite h
  | .obj _, h => ExactFields.isDefinite h
  | .null, _ | .bool _, _ | .int _, _ | .str _, _ => rfl
  | .real _, h | .unreadable, h => h.elim

/-- Exact items are definite. -/
theorem ExactItems.isDefinite : ∀ {items : List Json}, ExactItems items →
    isDefiniteItems items = true
  | [], _ => rfl
  | _ :: _, ⟨hv, hrest⟩ => by rw [isDefiniteItems, hv.isDefinite, ExactItems.isDefinite hrest]; rfl

/-- Exact fields are definite. -/
theorem ExactFields.isDefinite : ∀ {fields : List (String × Json)}, ExactFields fields →
    isDefiniteFields fields = true
  | [], _ => rfl
  | (_, _) :: _, ⟨hv, hrest⟩ => by
    rw [isDefiniteFields, hv.isDefinite, ExactFields.isDefinite hrest]
    rfl

end

end Saga.Json
