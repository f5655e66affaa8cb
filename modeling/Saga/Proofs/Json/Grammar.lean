import Saga.Proofs.Json.Literals

/-!
# Texts that spell a value

`Spells` says which texts spell a JSON value: literals as they are written, with any blanks where a
list or a record may be broken into lines. Every text that spells a value is read as that value
(`Spells.reads`), and a text that is one item or field to a line spells its value
(`spells_pretty`), provided that all its numbers are integers of 64 bits. So what was written
is read back (`parse?_pretty`).
-/

namespace Saga.Json

/-- Whether a text is blank between tokens. -/
def Spaces (cs : List Char) : Prop := ∀ c ∈ cs, isSpace c = true

mutual

/-- Whether a text spells a value. -/
inductive Spells : Json → List Char → Prop where
  | null : Spells .null ['n', 'u', 'l', 'l']
  | true : Spells (.bool true) ['t', 'r', 'u', 'e']
  | false : Spells (.bool false) ['f', 'a', 'l', 's', 'e']
  | int {n} : IsWord n → Spells (.int n) (intChars n)
  | str (text : String) : Spells (.str text) (quote text.toList)
  | noItems : Spells (.arr []) ['[', ']']
  | arr {b v items cs more} :
    Spaces b → Spells v cs → SpellsItems items more →
    Spells (.arr (v :: items)) ('[' :: (b ++ cs ++ more))
  | noFields : Spells (.obj []) ['\x7b', '\x7d']
  | obj {b b' v fields cs more} (k : String) :
    Spaces b → Spaces b' → Spells v cs → SpellsFields fields more →
    Spells (.obj ((k, v) :: fields))
      ('\x7b' :: (b ++ quote k.toList ++ ':' :: (b' ++ cs ++ more)))

/-- Whether a text spells the further items of a list and its closing bracket. -/
inductive SpellsItems : List Json → List Char → Prop where
  | close {b} : Spaces b → SpellsItems [] (b ++ [']'])
  | item {b v items cs more} :
    Spaces b → Spells v cs → SpellsItems items more →
    SpellsItems (v :: items) (',' :: (b ++ cs ++ more))

/-- Whether a text spells the further fields of a record and its closing brace. -/
inductive SpellsFields : List (String × Json) → List Char → Prop where
  | close {b} : Spaces b → SpellsFields [] (b ++ ['\x7d'])
  | field {b b' v fields cs more} (k : String) :
    Spaces b → Spaces b' → Spells v cs → SpellsFields fields more →
    SpellsFields ((k, v) :: fields)
      (',' :: (b ++ quote k.toList ++ ':' :: (b' ++ cs ++ more)))

end

/-! ## Blanks and first characters -/

/-- Blanks in front of a text are skipped. -/
lemma skipSpace_append {b : List Char} (hb : Spaces b) (cs : List Char) :
    skipSpace (b ++ cs) = skipSpace cs :=
  List.dropWhile_append_of_pos hb

/-- Nothing is skipped in front of a character that is no blank. -/
lemma skipSpace_cons {c : Char} (hc : isSpace c = false) (cs : List Char) :
    skipSpace (c :: cs) = c :: cs := by
  simp [skipSpace, hc]

/-- Blanks in front of a value do not matter to the reader. -/
lemma readValue_blank {b : List Char} (hb : Spaces b) (fuel : Nat) (cs : List Char) :
    readValue fuel (b ++ cs) = readValue fuel cs := by
  cases fuel with
  | zero => simp [readValue]
  | succ fuel => simp only [readValue, skipSpace_append hb]

/-- Blanks leave a text one at which numbers stop. -/
lemma stops_append {b : List Char} (hb : Spaces b) {c : Char} {cs : List Char}
    (hc : Stops (c :: cs)) : Stops (b ++ c :: cs) := by
  cases b with
  | nil => exact hc
  | cons d b =>
    have hspace : isSpace d = true := hb d List.mem_cons_self
    simp only [isSpace, Bool.or_eq_true, beq_iff_eq] at hspace
    rintro _ ⟨⟩
    rcases hspace with ((rfl | rfl) | rfl) | rfl <;> decide

/-- Numbers stop at what ends an item, a list or a record. -/
lemma stops_of_closing {c : Char} (hc : c ∈ [',', ']', '\x7d']) (cs : List Char) :
    Stops (c :: cs) := by
  rintro _ ⟨⟩
  simp only [List.mem_cons, List.not_mem_nil, or_false] at hc
  rcases hc with rfl | rfl | rfl <;> decide

/-- Whether a text begins with a character that is no blank and closes no list. -/
def Begins (cs : List Char) : Prop := ∃ c rest, cs = c :: rest ∧ isSpace c = false ∧ c ≠ ']'

/-- An integer begins with its sign or a digit. -/
lemma intChars_eq_cons (n : Int) :
    ∃ c rest, intChars n = c :: rest ∧ (c = '-' ∨ c.isDigit = true) := by
  cases n with
  | ofNat n =>
    obtain ⟨d, ds, hds⟩ := List.exists_cons_of_ne_nil (Nat.toDigits_ne_nil (n := n) (b := 10))
    refine ⟨d, ds, hds, .inr ?_⟩
    exact Nat.isDigit_of_mem_toDigits (n := n) (b := 10) (by decide) (by decide) (by simp [hds])
  | negSucc n => exact ⟨'-', _, rfl, .inl rfl⟩

/-- What begins a number is no blank. -/
lemma isSpace_of_number {c : Char} (hc : c = '-' ∨ c.isDigit = true) : isSpace c = false := by
  rcases hc with rfl | hc
  · rfl
  · simp only [isSpace, Bool.or_eq_false_iff, beq_eq_false_iff_ne]
    refine ⟨⟨⟨?_, ?_⟩, ?_⟩, ?_⟩
    all_goals
      rintro rfl
      cases hc

/-- A spelling begins as a value does. -/
lemma Spells.begins {v : Json} {cs : List Char} (h : Spells v cs) : Begins cs := by
  cases h with
  | @int n hn =>
    obtain ⟨c, rest, hcs, hc⟩ := intChars_eq_cons n
    refine ⟨c, rest, hcs, isSpace_of_number hc, ?_⟩
    rintro rfl
    rcases hc with hc | hc <;> cases hc
  | _ => exact ⟨_, _, rfl, rfl, by decide⟩

/-! ## Reading -/

/-- Whether a value is read from a text, behind blanks and before anything that does not go on as a
number. -/
def Reads (v : Json) (cs : List Char) : Prop :=
  ∀ {fuel : Nat} {b rest : List Char}, Spaces b → Stops rest → 2 * cs.length ≤ fuel →
    readValue fuel (b ++ (cs ++ rest)) = some (v, rest)

/-- Whether items are read from a text behind any first item. -/
def ReadsItems (items : List Json) (more : List Char) : Prop :=
  ∀ {v : Json} {cs : List Char}, Reads v cs → ∀ {fuel : Nat} {b rest : List Char},
    Spaces b → 2 * (cs.length + more.length) < fuel →
    readItems fuel (b ++ (cs ++ (more ++ rest))) = some (v :: items, rest)

/-- Whether fields are read from a text behind any first field. -/
def ReadsFields (fields : List (String × Json)) (more : List Char) : Prop :=
  ∀ {v : Json} {cs : List Char}, Reads v cs → ∀ {fuel : Nat} {b b' rest : List Char} {k : String},
    Spaces b → Spaces b' → 2 * (cs.length + more.length) < fuel →
    readFields fuel (b ++ (quote k.toList ++ ':' :: (b' ++ (cs ++ (more ++ rest))))) =
      some (((k, v) :: fields).map fun e => (some e.1, e.2), rest)

section Leaves

/-- A text is read once it is read without blanks before it, where each character pays for two
steps. -/
lemma Reads.of_cons {v : Json} {c : Char} {cs : List Char}
    (h : ∀ {fuel rest}, Stops rest → 2 * cs.length < fuel →
      readValue (fuel + 1) (c :: (cs ++ rest)) = some (v, rest)) : Reads v (c :: cs) := by
  intro fuel b rest hb hrest hfuel
  rw [List.length_cons] at hfuel
  cases fuel with
  | zero => omega
  | succ fuel =>
    rw [readValue_blank hb]
    apply h hrest
    omega

/-- What begins with a sign or a digit is read as a number. -/
lemma readValue_number {c : Char} (hc : c = '-' ∨ c.isDigit = true) {cs rest : List Char}
    (hskip : skipSpace cs = c :: rest) (fuel : Nat) :
    readValue (fuel + 1) cs = readNumber (c :: rest) := by
  rw [readValue, hskip]
  split
  case h_7 => rfl
  all_goals
    next heq =>
      cases heq
      rcases hc with hc | hc <;> cases hc

/-- An integer of 64 bits is read from its digits. -/
lemma reads_int {n : Int} (hn : IsWord n) : Reads (.int n) (intChars n) := by
  obtain ⟨c, cs, hcs, hc⟩ := intChars_eq_cons n
  rw [hcs]
  refine Reads.of_cons fun hrest _ => ?_
  have hread := readNumber_intChars hn hrest
  rw [hcs] at hread
  rw [readValue_number hc (skipSpace_cons (isSpace_of_number hc) _)]
  exact hread

/-- A text in quotes and what follows stand between and behind two quotes. -/
lemma quote_append (text cs : List Char) :
    quote text ++ cs = '"' :: (text.flatMap escape ++ '"' :: cs) := by
  simp [quote]

/-- A text is read from its quoted form. -/
lemma reads_str (text : String) : Reads (.str text) (quote text.toList) := by
  refine Reads.of_cons fun {fuel rest} _ _ => ?_
  rw [List.append_eq, List.append_assoc]
  exact ofPieces_quote text rest

end Leaves

section Items

variable {v : Json} {items : List Json} {b cs more : List Char}

/-- The items of an array from one of them on, when this one was read. -/
def itemsFrom (fuel : Nat) (v : Json) (rest : List Char) : Option (List Json × List Char) :=
  match skipSpace rest with
  | ',' :: rest => (readItems fuel rest).map fun r => (v :: r.1, r.2)
  | ']' :: rest => some ([v], rest)
  | _ => none

/-- A value that is read may be the first of some items. -/
lemma readItems_of_reads (hv : Reads v cs) (hb : Spaces b) {rest : List Char} (hrest : Stops rest)
    {fuel : Nat} (hfuel : 2 * cs.length ≤ fuel) :
    readItems (fuel + 1) (b ++ (cs ++ rest)) = itemsFrom fuel v rest := by
  rw [readItems, hv hb hrest hfuel]
  rfl

/-- A bracket ends the items. -/
lemma readsItems_close (hb : Spaces b) : ReadsItems [] (b ++ [']']) := by
  intro v cs hv fuel b' rest hb' hfuel
  cases fuel with
  | zero => cases hfuel
  | succ fuel =>
    have hstops : Stops (b ++ ([']'] ++ rest)) :=
      stops_append hb (stops_of_closing (by decide) rest)
    rw [List.append_assoc, readItems_of_reads hv hb' hstops (by simp at hfuel; omega),
      itemsFrom, skipSpace_append hb]
    rfl

/-- One more item is read in front of those that are. -/
lemma ReadsItems.item (hitems : ReadsItems items more) (hb : Spaces b) (hv : Reads v cs) :
    ReadsItems (v :: items) (',' :: (b ++ cs ++ more)) := by
  intro v' cs' hv' fuel b' rest hb' hfuel
  cases fuel with
  | zero => cases hfuel
  | succ fuel =>
    simp only [List.length_cons, List.length_append] at hfuel
    have hmore : readItems fuel (b ++ (cs ++ (more ++ rest))) = some (v :: items, rest) :=
      hitems hv hb (by omega)
    rw [List.cons_append, readItems_of_reads hv' hb' (stops_of_closing (by decide) _) (by omega),
      itemsFrom, skipSpace_cons rfl]
    simp only [List.append_assoc, hmore, Option.map_some]

/-- A list is read if its first item is and those behind it are. -/
lemma ReadsItems.arr (hitems : ReadsItems items more) (hb : Spaces b) (hbegins : Begins cs)
    (hv : Reads v cs) : Reads (.arr (v :: items)) ('[' :: (b ++ cs ++ more)) := by
  refine Reads.of_cons fun {fuel rest} _ hfuel => ?_
  obtain ⟨c, cs', rfl, hspace, hclose⟩ := hbegins
  have hread : readItems fuel (c :: cs' ++ (more ++ rest)) = some (v :: items, rest) :=
    hitems hv (b := []) nofun (by simp at hfuel ⊢; omega)
  have hskip : skipSpace (b ++ (c :: cs' ++ (more ++ rest))) = c :: cs' ++ (more ++ rest) := by
    rw [skipSpace_append hb]
    exact skipSpace_cons hspace _
  rw [List.append_assoc, List.append_assoc, readValue, skipSpace_cons rfl]
  simp only [hskip]
  split
  · next heq =>
    cases heq
    exact absurd rfl hclose
  · rw [hread]
    rfl

end Items

section Fields

variable {v : Json} {fields : List (String × Json)} {b b' cs more : List Char} {k : String}

/-- The fields of an object from one of them on, when this one was read. -/
def fieldsFrom (fuel : Nat) (field : Option String × Json) (rest : List Char) :
    Option (List (Option String × Json) × List Char) :=
  match skipSpace rest with
  | ',' :: rest => (readFields fuel rest).map fun r => (field :: r.1, r.2)
  | '\x7d' :: rest => some ([field], rest)
  | _ => none

/-- A value that is read may be that of the first of some fields. -/
lemma readFields_of_reads (hv : Reads v cs) (hb : Spaces b) (hb' : Spaces b') {rest : List Char}
    (hrest : Stops rest) {fuel : Nat} (hfuel : 2 * cs.length ≤ fuel) :
    readFields (fuel + 1) (b ++ (quote k.toList ++ ':' :: (b' ++ (cs ++ rest)))) =
      fieldsFrom fuel (some k, v) rest := by
  rw [quote_append, readFields, skipSpace_append hb, skipSpace_cons rfl]
  simp only [readPieces_escapes, joinPieces_map_pieceOf, skipSpace_cons (c := ':') rfl,
    hv hb' hrest hfuel, Option.map_some, String.ofList_toList]
  rfl

/-- A brace ends the fields. -/
lemma readsFields_close (hb : Spaces b) : ReadsFields [] (b ++ ['\x7d']) := by
  intro v cs hv fuel b₁ b₂ rest k hb₁ hb₂ hfuel
  cases fuel with
  | zero => cases hfuel
  | succ fuel =>
    have hstops : Stops (b ++ (['\x7d'] ++ rest)) :=
      stops_append hb (stops_of_closing (by decide) rest)
    rw [List.append_assoc, readFields_of_reads hv hb₁ hb₂ hstops (by simp at hfuel; omega),
      fieldsFrom, skipSpace_append hb]
    rfl

/-- One more field is read in front of those that are. -/
lemma ReadsFields.field (hfields : ReadsFields fields more) (hb : Spaces b) (hb' : Spaces b')
    (hv : Reads v cs) :
    ReadsFields ((k, v) :: fields) (',' :: (b ++ quote k.toList ++ ':' :: (b' ++ cs ++ more))) := by
  intro v' cs' hv' fuel b₁ b₂ rest k' hb₁ hb₂ hfuel
  cases fuel with
  | zero => cases hfuel
  | succ fuel =>
    simp only [List.length_cons, List.length_append] at hfuel
    have hmore : readFields fuel (b ++ (quote k.toList ++ ':' :: (b' ++ (cs ++ (more ++ rest))))) =
        some (((k, v) :: fields).map fun e => (some e.1, e.2), rest) :=
      hfields hv hb hb' (by omega)
    rw [List.cons_append,
      readFields_of_reads hv' hb₁ hb₂ (stops_of_closing (by decide) _) (by omega), fieldsFrom,
      skipSpace_cons rfl]
    simp only [List.append_assoc, List.cons_append, hmore, Option.map_some, List.map_cons]

/-- Fields whose keys are known make a record of just these fields. -/
lemma ofFields_map (fields : List (String × Json)) :
    ofFields (fields.map fun e => (some e.1, e.2)) = .obj fields := by
  have hall : (fields.map fun e => (some e.1, e.2)).mapM
      (fun e : Option String × Json => e.1.map fun key => (key, e.2)) = some fields := by
    induction fields with
    | nil => rfl
    | cons e fields ih => simp [ih]
  unfold ofFields
  rw [hall]

/-- A record is read if its first field is and those behind it are. -/
lemma ReadsFields.obj (hfields : ReadsFields fields more) (hb : Spaces b) (hb' : Spaces b')
    (hv : Reads v cs) :
    Reads (.obj ((k, v) :: fields))
      ('\x7b' :: (b ++ quote k.toList ++ ':' :: (b' ++ cs ++ more))) := by
  refine Reads.of_cons fun {fuel rest} _ hfuel => ?_
  have hread : readFields fuel (quote k.toList ++ ':' :: (b' ++ (cs ++ (more ++ rest)))) =
      some (((k, v) :: fields).map fun e => (some e.1, e.2), rest) :=
    hfields hv (b := []) nofun hb' (by simp at hfuel ⊢; omega)
  simp only [List.append_assoc, List.cons_append]
  rw [quote_append] at hread ⊢
  rw [readValue, skipSpace_cons rfl]
  simp only [skipSpace_append hb, skipSpace_cons (c := '"') rfl]
  show (readFields fuel _).map (fun r => (ofFields r.1, r.2)) = _
  rw [hread, Option.map_some, ofFields_map]

end Fields

mutual

/-- A text that spells a value is read as the value. -/
theorem Spells.reads {v : Json} {cs : List Char} : Spells v cs → Reads v cs
  | .null => Reads.of_cons fun _ _ => rfl
  | .true => Reads.of_cons fun _ _ => rfl
  | .false => Reads.of_cons fun _ _ => rfl
  | .int hn => reads_int hn
  | .str text => reads_str text
  | .noItems => Reads.of_cons fun _ _ => rfl
  | .arr hb hv hitems => ReadsItems.arr hitems.reads hb hv.begins hv.reads
  | .noFields => Reads.of_cons fun _ _ => rfl
  | .obj _ hb hb' hv hfields => ReadsFields.obj hfields.reads hb hb' hv.reads

/-- Items are read from their spelling. -/
theorem SpellsItems.reads {items : List Json} {more : List Char} :
    SpellsItems items more → ReadsItems items more
  | .close hb => readsItems_close hb
  | .item hb hv hitems => ReadsItems.item hitems.reads hb hv.reads

/-- Fields are read from their spelling. -/
theorem SpellsFields.reads {fields : List (String × Json)} {more : List Char} :
    SpellsFields fields more → ReadsFields fields more
  | .close hb => readsFields_close hb
  | .field _ hb hb' hv hfields => ReadsFields.field hfields.reads hb hb' hv.reads

end

/-- A text that spells a value holds that value. -/
theorem Spells.parse? {v : Json} {cs : List Char} (h : Spells v cs) :
    Json.parse? (String.ofList cs) = some v := by
  have hread : readValue (2 * cs.length + 2) ([] ++ (cs ++ [])) = some (v, []) :=
    h.reads nofun nofun (by omega)
  rw [List.nil_append, List.append_nil] at hread
  unfold Json.parse?
  rw [String.toList_ofList]
  simp only [hread]
  rfl

/-! ## Writing -/

mutual

/-- Whether all numbers in a value are integers of 64 bits and all its texts are known, so that its
written form says all of it. -/
def Exact : Json → Prop
  | int n => IsWord n
  | real _ | unreadable => False
  | arr items => ExactItems items
  | obj fields => ExactFields fields
  | null | bool _ | str _ => True

/-- Whether all of some values are exact. -/
def ExactItems : List Json → Prop
  | [] => True
  | v :: rest => Exact v ∧ ExactItems rest

/-- Whether the values of all fields are exact. -/
def ExactFields : List (String × Json) → Prop
  | [] => True
  | (_, v) :: rest => Exact v ∧ ExactFields rest

end

/-- A new line with its indentation is blank. -/
lemma spaces_newLine (level : Nat) : Spaces (newLine level) := by
  intro c hc
  rcases List.mem_cons.1 hc with rfl | hc
  · rfl
  · rw [List.eq_of_mem_replicate hc]
    rfl

/-- A blank is blank. -/
lemma spaces_blank : Spaces [' '] := by
  intro c hc
  rw [List.mem_singleton.1 hc]
  rfl

mutual

/-- What is written with one item or field to a line spells its value. -/
theorem spells_pretty : ∀ {v : Json} (level : Nat), Exact v → Spells v (prettyChars level v)
  | .null, _, _ => .null
  | .bool true, _, _ => .true
  | .bool false, _, _ => .false
  | .int _, _, hn => .int hn
  | .str text, _, _ => .str text
  | .real _, _, h => h.elim
  | .unreadable, _, h => h.elim
  | .arr [], _, _ => .noItems
  | .arr (_ :: _), level, ⟨hv, hrest⟩ =>
    .arr (spaces_newLine (level + 1)) (spells_pretty (level + 1) hv)
      (spells_prettyItems level hrest)
  | .obj [], _, _ => .noFields
  | .obj ((k, _) :: _), level, ⟨hv, hrest⟩ => by
    have hspells := Spells.obj k (spaces_newLine (level + 1)) spaces_blank
      (spells_pretty (level + 1) hv) (spells_prettyFields level hrest)
    simpa only [prettyChars, List.append_assoc, List.cons_append, List.nil_append] using hspells

/-- Exact items are spelled by their text on lines of their own. -/
theorem spells_prettyItems : ∀ {items : List Json} (level : Nat), ExactItems items →
    SpellsItems items (prettyItems level items)
  | [], level, _ => .close (spaces_newLine level)
  | _ :: _, level, ⟨hv, hrest⟩ =>
    .item (spaces_newLine (level + 1)) (spells_pretty (level + 1) hv)
      (spells_prettyItems level hrest)

/-- Exact fields are spelled by their text on lines of their own. -/
theorem spells_prettyFields : ∀ {fields : List (String × Json)} (level : Nat), ExactFields fields →
    SpellsFields fields (prettyFields level fields)
  | [], level, _ => .close (spaces_newLine level)
  | (k, _) :: _, level, ⟨hv, hrest⟩ => by
    have hspells := SpellsFields.field k (spaces_newLine (level + 1)) spaces_blank
      (spells_pretty (level + 1) hv) (spells_prettyFields level hrest)
    simpa only [prettyFields, List.append_assoc, List.cons_append, List.nil_append] using hspells

end

/-- What was written with one item or field to a line is read back. -/
theorem parse?_pretty {v : Json} (hv : Exact v) : parse? (pretty v) = some v :=
  (spells_pretty 0 hv).parse?

end Saga.Json
