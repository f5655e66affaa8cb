import Saga.Error
import Saga.Text.Quoted

/-!
# Services

A `Services V` resolves service names to values, each of the type `V k` that belongs to its name
`k`. Registering a name again replaces its value.
-/

namespace Saga

/-- Names of services, with the text that error messages and descriptions show for each. -/
class ServiceKey (K : Type) where
  label : K → String

/-- Registered services: a value of type `V k` for every registered name `k`. -/
structure Services {K : Type} (V : K → Type) where
  entries : List ((k : K) × V k) := []

namespace Services

variable {K : Type} {V : K → Type} [DecidableEq K]

/-- The value registered for `k` in a list of entries. -/
def lookup (k : K) : List ((j : K) × V j) → Option (V k)
  | [] => none
  | ⟨j, v⟩ :: rest => if h : j = k then some (h ▸ v) else lookup k rest

/-- Replaces the value registered for `k`, or appends one. -/
def put (k : K) (v : V k) : List ((j : K) × V j) → List ((j : K) × V j)
  | [] => [⟨k, v⟩]
  | ⟨j, w⟩ :: rest => if j = k then ⟨k, v⟩ :: rest else ⟨j, w⟩ :: put k v rest

/-- No services. -/
def empty : Services V := {}

/-- Registers `v` under `k`. -/
def insert (s : Services V) (k : K) (v : V k) : Services V := ⟨put k v s.entries⟩

/-- Resolves `k`, if it is registered. -/
def get? (s : Services V) (k : K) : Option (V k) := lookup k s.entries

/-- Whether `k` is registered. -/
def contains (s : Services V) (k : K) : Bool := (s.get? k).isSome

/-- Resolves `k`, which must be registered. -/
def require [ServiceKey K] (s : Services V) (k : K) : Except EngineError (V k) :=
  match s.get? k with
  | some v => .ok v
  | none => .error (.serviceNotRegistered (ServiceKey.label k))

/-- The number of registered services. -/
def size (s : Services V) : Nat := s.entries.length

/-- The services with the sorted names of what is registered. -/
def describe [ServiceKey K] (s : Services V) : String :=
  let names := s.entries.map fun e => ServiceKey.label e.1
  "Services \x7b registered: " ++ quotedList (names.mergeSort fun a b => a ≤ b) ++ " \x7d"

/-- After a put its key has the new value. -/
theorem lookup_put_self (k : K) (v : V k) (es : List ((j : K) × V j)) :
    lookup k (put k v es) = some v := by
  induction es with
  | nil => simp [put, lookup]
  | cons e rest ih =>
    obtain ⟨j, w⟩ := e
    by_cases h : j = k
    · simp [put, h, lookup]
    · simp [put, h, lookup, ih]

/-- A put leaves what stands under the other keys. -/
theorem lookup_put_of_ne {k j : K} (h : k ≠ j) (v : V k) (es : List ((i : K) × V i)) :
    lookup j (put k v es) = lookup j es := by
  induction es with
  | nil => simp [put, lookup, h]
  | cons e rest ih =>
    obtain ⟨i, w⟩ := e
    by_cases hi : i = k
    · subst hi
      simp [put, lookup, h]
    · by_cases hj : i = j
      · subst hj
        simp [put, hi, lookup]
      · simp [put, hi, lookup, hj, ih]

/-- A service that was registered is found under its key. -/
@[simp] theorem get?_insert_self (s : Services V) (k : K) (v : V k) :
    (s.insert k v).get? k = some v :=
  lookup_put_self k v s.entries

/-- Registering a service leaves those under other keys as they were. -/
theorem get?_insert_of_ne (s : Services V) {k j : K} (h : k ≠ j) (v : V k) :
    (s.insert k v).get? j = s.get? j :=
  lookup_put_of_ne h v s.entries

end Services

end Saga
