import Saga.Json.Basic

/-!
# Reading records

A record is read from an object, where unknown fields are passed over and a known field may stand
once, or from an array of its fields in declaration order. `slots` lines the given values up with
the fields of the record; the readers of a `Slot` say what becomes of a field that is not there.
-/

namespace Saga.Json

/-- What a record holds for one of its fields. -/
inductive Slot where
  | given (v : Json)
  /-- The object has no such field. -/
  | absent (field : String)
  /-- The array ends before this field. -/
  | beyond (items : Nat)

/-- The slot of one field of an object. -/
def fieldSlot (fields : List (String × Json)) (name : String) : Except Fault Slot :=
  match fields.filter fun e => e.1 == name with
  | [] => .ok (.absent name)
  | [e] => .ok (.given e.2)
  | _ => .error (.duplicate name)

/-- One slot for each field, in the order of `names`. -/
def slots (names : List String) : Json → Except Fault (List Slot)
  | .obj fields => names.mapM (fieldSlot fields)
  | .arr items =>
    if names.length < items.length then .error (.length items.length)
    else .ok (items.map .given ++
      List.replicate (names.length - items.length) (.beyond items.length))
  | _ => .error (.expected "a record")

namespace Slot

/-- A field that must be there. -/
def required {α : Type} (read : Json → Except Fault α) : Slot → Except Fault α
  | given v => read v
  | absent field => .error (.missing field)
  | beyond items => .error (.length items)

end Slot

/-- A text. -/
def asText : Json → Except Fault String
  | .str text => .ok text
  | _ => .error (.expected "a string")

/-- A whole number below `bound`. -/
def asNat (bound : Nat) : Json → Except Fault Nat
  | .int (.ofNat n) => if n < bound then .ok n else .error (.expected s!"a number below {bound}")
  | _ => .error (.expected "a whole number")

/-- An integer of 32 bits. -/
def asInt32 : Json → Except Fault Int32
  | .int n =>
    if Int32.minValue.toInt ≤ n ∧ n ≤ Int32.maxValue.toInt then .ok (Int32.ofInt n)
    else .error (.expected "a 32-bit integer")
  | _ => .error (.expected "an integer")

/-- An integer of 64 bits. -/
def asInt64 : Json → Except Fault Int64
  | .int n =>
    if Int64.minValue.toInt ≤ n ∧ n ≤ Int64.maxValue.toInt then .ok (Int64.ofInt n)
    else .error (.expected "a 64-bit integer")
  | _ => .error (.expected "an integer")

/-- A list whose items are all read by `read`. -/
def asList {α : Type} (read : Json → Except Fault α) : Json → Except Fault (List α)
  | .arr items => items.mapM read
  | _ => .error (.expected "a list")

/-- Any value, canonical, that stands inside `level` arrays and objects. -/
def asValue (level : Nat) (v : Json) : Except Fault Json :=
  if nestingLimit < level + depthOf v then .error .depth
  else if isDefinite v then .ok (canonical v)
  else .error .malformed

end Saga.Json
