import Saga.Proofs.Json.Grammar

/-!
# Values without blanks

What is written without blanks spells its value as well (`spells_compact`), so it is read back
(`parse?_compact`).
-/

namespace Saga.Json

/-- No characters are blanks. -/
lemma spaces_nil : Spaces [] := nofun

mutual

/-- What is written without blanks spells its value. -/
theorem spells_compact : ∀ {v : Json}, Exact v → Spells v (compactChars v)
  | .null, _ => .null
  | .bool true, _ => .true
  | .bool false, _ => .false
  | .int _, hn => .int hn
  | .str text, _ => .str text
  | .real _, h => h.elim
  | .unreadable, h => h.elim
  | .arr [], _ => .noItems
  | .arr (_ :: _), ⟨hv, hrest⟩ =>
    .arr spaces_nil (spells_compact hv) (spells_compactMoreItems hrest)
  | .obj [], _ => .noFields
  | .obj ((k, _) :: _), ⟨hv, hrest⟩ =>
    .obj k spaces_nil spaces_nil (spells_compact hv) (spells_compactMoreFields hrest)

/-- Exact items without blanks are spelled by their compact text. -/
theorem spells_compactMoreItems : ∀ {items : List Json}, ExactItems items →
    SpellsItems items (compactMoreItems items)
  | [], _ => .close spaces_nil
  | _ :: _, ⟨hv, hrest⟩ =>
    .item spaces_nil (spells_compact hv) (spells_compactMoreItems hrest)

/-- Exact fields without blanks are spelled by their compact text. -/
theorem spells_compactMoreFields : ∀ {fields : List (String × Json)}, ExactFields fields →
    SpellsFields fields (compactMoreFields fields)
  | [], _ => .close spaces_nil
  | (k, _) :: _, ⟨hv, hrest⟩ =>
    .field k spaces_nil spaces_nil (spells_compact hv) (spells_compactMoreFields hrest)

end

/-- What was written without blanks is read back. -/
theorem parse?_compact {v : Json} (hv : Exact v) : parse? (compact v) = some v :=
  (spells_compact hv).parse?

end Saga.Json
