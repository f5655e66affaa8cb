/-!
# Keyed collections

A `Keyed κ ν` holds at most one value for each key, its entries in the order in which their keys
came in. Writing a key that is present replaces its value in place. `get?_insert` and
`get?_modify` say what the two writers do to every look-up, `keys_insert` what they do to the keys.
-/

namespace Saga

/-- Entries in the order in which their keys came in, no key twice. -/
structure Keyed (κ ν : Type) where
  entries : List (κ × ν)
  nodup : (entries.map Prod.fst).Nodup

namespace Keyed

variable {κ ν : Type} [DecidableEq κ]

/-- The value of the first entry for `k`. -/
def lookup (k : κ) : List (κ × ν) → Option ν
  | [] => none
  | (k', v) :: rest => if k' = k then some v else lookup k rest

/-- Replaces the value of the first entry for `k`, or appends one. -/
def put (k : κ) (v : ν) : List (κ × ν) → List (κ × ν)
  | [] => [(k, v)]
  | (k', v') :: rest => if k' = k then (k, v) :: rest else (k', v') :: put k v rest

/-- Applies `f` to the value of every entry for `k`. -/
def alter (k : κ) (f : ν → ν) : List (κ × ν) → List (κ × ν)
  | [] => []
  | (k', v) :: rest => (k', if k' = k then f v else v) :: alter k f rest

/-- A put leaves the keys as they were if its key is among them, and else adds it at the end. -/
theorem map_fst_put (k : κ) (v : ν) (es : List (κ × ν)) :
    (put k v es).map Prod.fst =
      if k ∈ es.map Prod.fst then es.map Prod.fst else es.map Prod.fst ++ [k] := by
  induction es with
  | nil => rfl
  | cons e rest ih =>
    obtain ⟨k', v'⟩ := e
    by_cases h : k' = k
    · simp [put, h]
    · have h' : ¬ k = k' := fun e => h e.symm
      simp only [put, h, if_false, List.map_cons, ih, List.mem_cons, h', false_or]
      split <;> simp

/-- Altering a value leaves the keys as they were. -/
theorem map_fst_alter (k : κ) (f : ν → ν) (es : List (κ × ν)) :
    (alter k f es).map Prod.fst = es.map Prod.fst := by
  induction es with
  | nil => rfl
  | cons e rest ih => simp [alter, ih]

/-- After a put its key has the new value, and the other keys have what they had. -/
theorem lookup_put (k j : κ) (v : ν) (es : List (κ × ν)) :
    lookup j (put k v es) = if k = j then some v else lookup j es := by
  induction es with
  | nil => rfl
  | cons e rest ih =>
    obtain ⟨k', v'⟩ := e
    by_cases h : k' = k
    · subst h
      simp only [put, if_true, lookup]
      split <;> rfl
    · simp only [put, h, if_false, lookup, ih]
      by_cases hj : k' = j
      · have : ¬ k = j := fun e => h (hj.trans e.symm)
        simp [hj, this]
      · simp [hj]

/-- Altering a key changes the value under it, if there is one, and no other. -/
theorem lookup_alter (k j : κ) (f : ν → ν) (es : List (κ × ν)) :
    lookup j (alter k f es) = if k = j then (lookup j es).map f else lookup j es := by
  induction es with
  | nil => simp [alter, lookup]
  | cons e rest ih =>
    obtain ⟨k', v'⟩ := e
    simp only [alter, lookup, ih]
    by_cases hj : k' = j
    · subst hj
      by_cases h : k' = k
      · simp [h]
      · have : ¬ k = k' := fun e => h e.symm
        simp [h, this]
    · simp [hj]

/-- A look-up finds a value just for the keys that are there. -/
theorem lookup_isSome_iff (k : κ) (es : List (κ × ν)) :
    (lookup k es).isSome ↔ k ∈ es.map Prod.fst := by
  induction es with
  | nil => simp [lookup]
  | cons e rest ih =>
    obtain ⟨k', v'⟩ := e
    simp only [lookup, List.map_cons, List.mem_cons]
    by_cases h : k' = k
    · simp [h]
    · have h' : ¬ k = k' := fun e => h e.symm
      simp [h, h', ih]

/-- The collection without entries. -/
def empty : Keyed κ ν := ⟨[], .nil⟩

/-- The value held for `k`. -/
def get? (t : Keyed κ ν) (k : κ) : Option ν := lookup k t.entries

/-- Whether `k` has a value. -/
def contains (t : Keyed κ ν) (k : κ) : Bool := (t.get? k).isSome

/-- Holds `v` for `k`, replacing what was there. -/
def insert (t : Keyed κ ν) (k : κ) (v : ν) : Keyed κ ν where
  entries := put k v t.entries
  nodup := by
    rw [map_fst_put]
    split
    · exact t.nodup
    · next h =>
      rw [List.nodup_append]
      exact ⟨t.nodup, by simp, fun a ha b hb e => by simp at hb; exact h (hb ▸ e ▸ ha)⟩

/-- Applies `f` to the value held for `k`, if there is one. -/
def modify (t : Keyed κ ν) (k : κ) (f : ν → ν) : Keyed κ ν where
  entries := alter k f t.entries
  nodup := by rw [map_fst_alter]; exact t.nodup

/-- Applies `f` to every value. -/
def mapValues (t : Keyed κ ν) (f : ν → ν) : Keyed κ ν where
  entries := t.entries.map fun e => (e.1, f e.2)
  nodup := by simpa [List.map_map, Function.comp_def] using t.nodup

/-- The keys, in the order in which they came in. -/
def keys (t : Keyed κ ν) : List κ := t.entries.map Prod.fst

/-- The values, in the order of their keys. -/
def values (t : Keyed κ ν) : List ν := t.entries.map Prod.snd

/-- The number of keys. -/
def size (t : Keyed κ ν) : Nat := t.entries.length

/-- The collection that holds the last value given for each key. -/
def ofList (es : List (κ × ν)) : Keyed κ ν :=
  es.foldl (fun t e => t.insert e.1 e.2) empty

/-- There is nothing in the empty table. -/
@[simp] theorem get?_empty (k : κ) : (empty : Keyed κ ν).get? k = none := rfl

/-- After an insertion its key has the new value, and the other keys have what they had. -/
@[simp] theorem get?_insert (t : Keyed κ ν) (k j : κ) (v : ν) :
    (t.insert k v).get? j = if k = j then some v else t.get? j :=
  lookup_put k j v t.entries

/-- Modifying a key changes the value under it, if there is one, and no other. -/
@[simp] theorem get?_modify (t : Keyed κ ν) (k j : κ) (f : ν → ν) :
    (t.modify k f).get? j = if k = j then (t.get? j).map f else t.get? j :=
  lookup_alter k j f t.entries

/-- Mapping the values of a list of entries maps what is looked up in it. -/
theorem lookup_map (k : κ) (f : ν → ν) (es : List (κ × ν)) :
    lookup k (es.map fun e => (e.1, f e.2)) = (lookup k es).map f := by
  induction es with
  | nil => rfl
  | cons e rest ih =>
    simp only [List.map_cons, lookup, ih]
    split <;> rfl

/-- Mapping the values of a table maps what is found in it. -/
@[simp] theorem get?_mapValues (t : Keyed κ ν) (k : κ) (f : ν → ν) :
    (t.mapValues f).get? k = (t.get? k).map f :=
  lookup_map k f t.entries

/-- An insertion leaves the keys as they were if its key is among them, and else adds it at the
end. -/
theorem keys_insert (t : Keyed κ ν) (k : κ) (v : ν) :
    (t.insert k v).keys = if k ∈ t.keys then t.keys else t.keys ++ [k] :=
  map_fst_put k v t.entries

/-- Where no key comes twice, the value found under a key is the one that is listed with it. -/
theorem lookup_eq_some_iff {es : List (κ × ν)} (h : (es.map Prod.fst).Nodup) (k : κ) (v : ν) :
    lookup k es = some v ↔ (k, v) ∈ es := by
  induction es with
  | nil => simp [lookup]
  | cons e rest ih =>
    obtain ⟨k', v'⟩ := e
    rw [List.map_cons, List.nodup_cons] at h
    rw [lookup, List.mem_cons, Prod.mk.injEq]
    by_cases hk : k' = k
    · subst hk
      have hnone : (k', v) ∉ rest := fun hmem => h.1 (List.mem_map.2 ⟨(k', v), hmem, rfl⟩)
      simp [hnone, eq_comm]
    · have hk' : ¬ k = k' := fun e => hk e.symm
      simp [hk, hk', ih h.2]

/-- The value found under a key is the one that is listed with it. -/
theorem get?_eq_some_iff (t : Keyed κ ν) (k : κ) (v : ν) :
    t.get? k = some v ↔ (k, v) ∈ t.entries :=
  lookup_eq_some_iff t.nodup k v

/-- A table contains the keys that it lists. -/
theorem contains_iff_mem_keys (t : Keyed κ ν) (k : κ) : t.contains k ↔ k ∈ t.keys :=
  lookup_isSome_iff k t.entries

/-- An insertion makes the table contain its key, besides those it contained. -/
theorem contains_insert (t : Keyed κ ν) (k j : κ) (v : ν) :
    (t.insert k v).contains j ↔ k = j ∨ t.contains j := by
  unfold contains
  rw [get?_insert]
  split <;> simp_all

/-- Modifying a value leaves the table with the keys it had. -/
@[simp] theorem contains_modify (t : Keyed κ ν) (k j : κ) (f : ν → ν) :
    (t.modify k f).contains j = t.contains j := by
  unfold contains
  rw [get?_modify]
  split <;> simp

end Keyed

end Saga
