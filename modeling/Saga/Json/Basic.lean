import Saga.Json.Magnitude

/-!
# JSON values

The values that message payloads and snapshot files are made of. Integers are exact; any other
number keeps its literal. An object is a list of fields: a written record keeps the order in which
its fields are given, while a payload is `canonical`, its keys strictly ascending.
-/

namespace Saga

/-- A JSON value. -/
inductive Json where
  | null
  | bool (b : Bool)
  | int (n : Int)
  /-- A number that is no integer in the 64-bit ranges, by its literal. -/
  | real (literal : String)
  | str (text : String)
  /-- A string literal with half of a surrogate pair, or an object with such a key. It is well
  formed and has no text, so it can only be passed over. -/
  | unreadable
  | arr (items : List Json)
  | obj (fields : List (String × Json))
  deriving Inhabited, Repr

namespace Json

/-- Why a value could not be written or read. -/
inductive Fault where
  /-- The text is no JSON text. -/
  | malformed
  /-- A value of another kind stands where this was needed. -/
  | expected (what : String)
  | missing (field : String)
  | duplicate (field : String)
  | unknownVariant (name : String)
  /-- A list has too many or too few items for a record. -/
  | length (found : Nat)
  /-- Values are nested deeper than the reader goes. -/
  | depth
  /-- A value refused to be written, in its own words. -/
  | refused (text : String)
  deriving DecidableEq, Repr

/-- The text before and after the last place where the mark stands. -/
def splitAtLast? (mark : List Char) : List Char → Option (List Char × List Char)
  | [] => none
  | c :: rest =>
    match splitAtLast? mark rest with
    | some (before, after) => some (c :: before, after)
    | none => if mark.isPrefixOf (c :: rest) then some ([], (c :: rest).drop mark.length) else none

/-- The number of 64 bits at the front of a text, and what follows it. -/
def placeNumber? (cs : List Char) : Option (Nat × List Char) :=
  let digits := cs.takeWhile Char.isDigit
  let n := Nat.ofDigitChars 10 digits 0
  if digits.isEmpty || UInt64.size ≤ n then none else some (n, cs.drop digits.length)

/-- A text that ends in a place, as the text before it and the line and column of the place. -/
def placed? (text : String) : Option (String × Nat × Nat) := do
  let (before, after) ← splitAtLast? " at line ".toList text.toList
  let (line, after) ← placeNumber? after
  let mark := " column ".toList
  if !mark.isPrefixOf after then none
  let (column, after) ← placeNumber? (after.drop mark.length)
  if after.isEmpty then some (String.ofList before, line, column) else none

/-- The wording of a refusal. If it ends in a place, the numbers of the place are written anew; line
zero is no place. -/
def refusal (text : String) : String :=
  match placed? text with
  | none => text
  | some (before, 0, _) => before
  | some (before, line, column) => s!"{before} at line {line} column {column}"

/-- The wording of a fault. -/
def Fault.message : Fault → String
  | malformed => "malformed text"
  | expected what => s!"invalid type: expected {what}"
  | missing field => "missing field " ++ field
  | duplicate field => "duplicate field " ++ field
  | unknownVariant name => "unknown variant " ++ name
  | length found => s!"invalid length {found}"
  | depth => "recursion limit exceeded"
  | refused text => refusal text

/-- The deepest nesting of arrays and objects that a reader accepts. -/
def nestingLimit : Nat := 127

mutual

/-- How deeply arrays and objects are nested in a value. -/
def depthOf : Json → Nat
  | arr items => depthOfItems items + 1
  | obj fields => depthOfFields fields + 1
  | _ => 0

/-- The greatest depth of some values. -/
def depthOfItems : List Json → Nat
  | [] => 0
  | v :: rest => max (depthOf v) (depthOfItems rest)

/-- The greatest depth of the values of some fields. -/
def depthOfFields : List (String × Json) → Nat
  | [] => 0
  | (_, v) :: rest => max (depthOf v) (depthOfFields rest)

end

/-- Writes a field into fields with ascending keys, replacing the one of the same key. -/
def putField (key : String) (v : Json) : List (String × Json) → List (String × Json)
  | [] => [(key, v)]
  | (k, w) :: rest =>
    if key < k then (key, v) :: (k, w) :: rest
    else if key = k then (key, v) :: rest
    else (k, w) :: putField key v rest

/-- The fields with ascending keys that hold the last value given for each key. -/
def sortFields (fields : List (String × Json)) : List (String × Json) :=
  fields.foldl (fun acc e => putField e.1 e.2 acc) []

mutual

/-- The same value with the keys of every object ascending, the last field of each key counting. -/
def canonical : Json → Json
  | arr items => arr (canonicalItems items)
  | obj fields => obj (sortFields (canonicalFields fields))
  | v => v

/-- The canonical forms of some values. -/
def canonicalItems : List Json → List Json
  | [] => []
  | v :: rest => canonical v :: canonicalItems rest

/-- The fields with canonical values, in the order given. -/
def canonicalFields : List (String × Json) → List (String × Json)
  | [] => []
  | (k, v) :: rest => (k, canonical v) :: canonicalFields rest

end

mutual

/-- Whether every string literal in the value has a text, and every number is finite. -/
def isDefinite : Json → Bool
  | unreadable => false
  | real literal => isFinite literal
  | arr items => isDefiniteItems items
  | obj fields => isDefiniteFields fields
  | _ => true

/-- Whether all of some values are definite. -/
def isDefiniteItems : List Json → Bool
  | [] => true
  | v :: rest => isDefinite v && isDefiniteItems rest

/-- Whether the values of all fields are definite. -/
def isDefiniteFields : List (String × Json) → Bool
  | [] => true
  | (_, v) :: rest => isDefinite v && isDefiniteFields rest

end

mutual

/-- Whether two values are the same, fields in the same order. -/
def same : Json → Json → Bool
  | null, null => true
  | bool a, bool b => a == b
  | int a, int b => a == b
  | real a, real b => a == b
  | str a, str b => a == b
  | unreadable, unreadable => true
  | arr a, arr b => sameItems a b
  | obj a, obj b => sameFields a b
  | _, _ => false

/-- Whether two lists hold the same values. -/
def sameItems : List Json → List Json → Bool
  | [], [] => true
  | a :: as, b :: bs => same a b && sameItems as bs
  | _, _ => false

/-- Whether two lists hold the same fields. -/
def sameFields : List (String × Json) → List (String × Json) → Bool
  | [], [] => true
  | (k, a) :: as, (l, b) :: bs => k == l && same a b && sameFields as bs
  | _, _ => false

end

mutual

/-- Values that the comparison takes for the same are equal. -/
theorem eq_of_same : ∀ {a b : Json}, same a b = true → a = b
  | .null, b, h => by cases b <;> simp [same] at h ⊢
  | .bool a, b, h => by cases b <;> simp [same] at h ⊢; exact h
  | .int a, b, h => by cases b <;> simp [same] at h ⊢; exact h
  | .real a, b, h => by cases b <;> simp [same] at h ⊢; exact h
  | .str a, b, h => by cases b <;> simp [same] at h ⊢; exact h
  | .unreadable, b, h => by cases b <;> simp [same] at h ⊢
  | .arr as, b, h => by cases b <;> simp [same] at h ⊢; exact eq_of_sameItems h
  | .obj as, b, h => by cases b <;> simp [same] at h ⊢; exact eq_of_sameFields h

/-- Lists of values that the comparison takes for the same are equal. -/
theorem eq_of_sameItems : ∀ {as bs : List Json}, sameItems as bs = true → as = bs
  | [], bs, h => by cases bs <;> simp [sameItems] at h ⊢
  | a :: as, bs, h => by
    cases bs with
    | nil => simp [sameItems] at h
    | cons b bs =>
      simp only [sameItems, Bool.and_eq_true] at h
      rw [eq_of_same h.1, eq_of_sameItems h.2]

/-- Lists of fields that the comparison takes for the same are equal. -/
theorem eq_of_sameFields : ∀ {as bs : List (String × Json)}, sameFields as bs = true → as = bs
  | [], bs, h => by cases bs <;> simp [sameFields] at h ⊢
  | (k, a) :: as, bs, h => by
    cases bs with
    | nil => simp [sameFields] at h
    | cons e bs =>
      obtain ⟨l, b⟩ := e
      simp only [sameFields, Bool.and_eq_true, beq_iff_eq] at h
      rw [h.1.1, eq_of_same h.1.2, eq_of_sameFields h.2]

end

mutual

/-- The comparison takes a value for the same as itself. -/
theorem same_refl : ∀ a : Json, same a a = true
  | .null => rfl
  | .bool a => by simp [same]
  | .int a => by simp [same]
  | .real a => by simp [same]
  | .str a => by simp [same]
  | .unreadable => rfl
  | .arr as => by rw [same]; exact sameItems_refl as
  | .obj as => by rw [same]; exact sameFields_refl as

/-- The comparison takes a list of values for the same as itself. -/
theorem sameItems_refl : ∀ as : List Json, sameItems as as = true
  | [] => rfl
  | a :: as => by rw [sameItems, same_refl a, sameItems_refl as]; rfl

/-- The comparison takes a list of fields for the same as itself. -/
theorem sameFields_refl : ∀ as : List (String × Json), sameFields as as = true
  | [] => rfl
  | (k, a) :: as => by rw [sameFields, same_refl a, sameFields_refl as]; simp

end

instance : DecidableEq Json := fun a b =>
  if h : same a b = true then isTrue (eq_of_same h)
  else isFalse fun e => h (e ▸ same_refl a)

end Json

end Saga
