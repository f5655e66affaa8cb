import Mathlib.Data.List.TakeWhile
import Saga.Proofs.Json.Grammar

/-!
# Texts that are cut off

What a reader takes from a text it takes from every longer one too, as long as something was left to
show where it ends (`Leaves`). A list or a record ends with its closing bracket, so nothing need be
left (`Closes`). A text that spells one is therefore never cut off before that bracket and still
read (`parse?_cut`), and neither is a text that only begins like one and ends with something else
(`parse?_concat`).
-/

namespace Saga.Json

section Readings

variable {α : Type} {read : List Char → Option (α × List Char)} {cs rest : List Char} {a : α}

/-- Whether reading leaves an end of a text, which the reader finds again if the text goes on. -/
structure Leaves (read : List Char → Option (α × List Char)) (cs : List Char) (a : α)
    (rest : List Char) : Prop where
  suffix : rest <:+ cs
  again : rest ≠ [] → ∀ more, read (cs ++ more) = some (a, rest ++ more)

/-- Whether reading ends behind a closing character, whatever stands there. -/
structure Closes (close : Char) (read : List Char → Option (α × List Char)) (cs : List Char) (a : α)
    (rest : List Char) : Prop where
  suffix : close :: rest <:+ cs
  again : ∀ more, read (cs ++ more) = some (a, rest ++ more)

/-- A reader that ends behind a closing character has read something. -/
lemma Closes.ne_nil {close : Char} (h : Closes close read cs a rest) : cs ≠ [] := by
  rintro rfl
  cases List.suffix_nil.1 h.suffix

/-- A reader that ends behind a closing character leaves the rest of its text. -/
lemma Closes.leaves {close : Char} (h : Closes close read cs a rest) : Leaves read cs a rest :=
  ⟨(List.suffix_cons close rest).trans h.suffix, fun _ => h.again⟩

end Readings

/-! ## Blanks -/

section Blanks

variable {cs rest : List Char} {c : Char}

/-- The blanks in front of a text are the same if it goes on. -/
lemma skipSpace_more (h : skipSpace cs = c :: rest) (more : List Char) :
    skipSpace (cs ++ more) = c :: (rest ++ more) := by
  unfold skipSpace at h ⊢
  rw [List.dropWhile_append, h]
  rfl

/-- What is left behind blanks is an end of the text. -/
lemma suffix_of_skipSpace (h : skipSpace cs = c :: rest) : c :: rest <:+ cs := by
  rw [← h]
  exact List.dropWhile_suffix _

/-- What is left behind blanks and one more character is an end of the text. -/
lemma rest_suffix_of_skipSpace (h : skipSpace cs = c :: rest) : rest <:+ cs :=
  (List.suffix_cons c rest).trans (suffix_of_skipSpace h)

end Blanks

/-! ## Strings -/

/-- A piece is put in front of the pieces that were read. -/
lemma pushPiece_eq_some {p : Piece} {x : Option (List Piece × List Char)} {pieces : List Piece}
    {rest : List Char} (h : pushPiece p x = some (pieces, rest)) :
    ∃ tail, x = some (tail, rest) ∧ pieces = p :: tail := by
  obtain ⟨⟨tail, rest'⟩, hx, heq⟩ := Option.map_eq_some_iff.1 h
  cases heq
  exact ⟨tail, hx, rfl⟩

/-- A text in quotes ends behind its closing quote. -/
lemma readPieces_closes {cs rest : List Char} {pieces : List Piece}
    (h : readPieces cs = some (pieces, rest)) : Closes '"' readPieces cs pieces rest := by
  fun_induction readPieces cs generalizing pieces rest with
  | case1 => cases h
  | case2 rest' =>
    cases h
    exact ⟨List.suffix_rfl, fun more => by rw [List.cons_append, readPieces]⟩
  | case3 a b c d cs hunit => cases h
  | case4 a b c d cs u hunit ih =>
    obtain ⟨tail, htail, rfl⟩ := pushPiece_eq_some h
    have hrest := ih htail
    refine ⟨hrest.suffix.trans (List.suffix_append ['\\', 'u', a, b, c, d] cs), fun more => ?_⟩
    simp only [List.cons_append]
    rw [readPieces, hunit]
    simp only [hrest.again more]
    rfl
  | case5 e cs hlong hescape => cases h
  | case6 e cs hlong c hescape ih =>
    obtain ⟨tail, htail, rfl⟩ := pushPiece_eq_some h
    have hrest := ih htail
    have hu : e ≠ 'u' := by
      rintro rfl
      cases hescape
    refine ⟨hrest.suffix.trans (List.suffix_append ['\\', e] cs), fun more => ?_⟩
    simp only [List.cons_append]
    rw [readPieces, hescape]
    · simp only [hrest.again more]
      rfl
    · rintro _ _ _ _ _ rfl
      exact absurd rfl hu
  | case7 c cs hquote hunit hshort hbad => cases h
  | case8 c cs hquote hunit hshort hgood ih =>
    obtain ⟨tail, htail, rfl⟩ := pushPiece_eq_some h
    have hrest := ih htail
    refine ⟨hrest.suffix.trans (List.suffix_cons c cs), fun more => ?_⟩
    have hback : c ≠ '\\' := by
      rintro rfl
      exact hgood rfl
    rw [List.cons_append, readPieces, if_neg hgood, hrest.again more]
    · rfl
    · exact hquote
    · exact fun _ _ _ _ _ heq _ => hback heq
    · exact fun _ _ heq _ => hback heq

/-! ## Numbers -/

section Numbers

variable {cs rest ds : List Char}

/-- Digits leave the rest of their text. -/
lemma digits?_leaves (h : digits? cs = some (ds, rest)) : Leaves digits? cs ds rest := by
  unfold digits? at h
  split at h
  · cases h
  · next hne =>
    cases h
    refine ⟨List.dropWhile_suffix _, fun hrest more => ?_⟩
    have hlength : (cs.takeWhile Char.isDigit).length ≠ cs.length := by
      intro heq
      have hboth :=
        congrArg List.length (List.takeWhile_append_dropWhile (p := Char.isDigit) (l := cs))
      rw [List.length_append, heq] at hboth
      exact hrest (List.eq_nil_of_length_eq_zero (by omega))
    unfold digits?
    rw [List.takeWhile_append, if_neg hlength, List.dropWhile_append, if_neg (by simpa using hrest)]
    split
    · next hnil => exact absurd hnil hne
    · rfl

/-- Digits leave the rest of their text, whatever is made of them. -/
lemma digits?_map_leaves (f : List Char → List Char)
    (h : ((digits? cs).map fun r => (f r.1, r.2)) = some (ds, rest)) :
    Leaves (fun cs => (digits? cs).map fun r => (f r.1, r.2)) cs ds rest := by
  obtain ⟨⟨ds', rest'⟩, hdigits, heq⟩ := Option.map_eq_some_iff.1 h
  cases heq
  have hleaves := digits?_leaves hdigits
  exact ⟨hleaves.suffix, fun hrest more => by simp only [hleaves.again hrest more, Option.map_some]⟩

/-- A fraction leaves the rest of its text. -/
lemma fraction?_leaves (h : fraction? cs = some (ds, rest)) : Leaves fraction? cs ds rest := by
  unfold fraction? at h
  split at h
  · have hleaves := digits?_map_leaves ('.' :: ·) h
    exact ⟨hleaves.suffix.trans (List.suffix_cons _ _), hleaves.again⟩
  · next hpoint =>
    cases h
    refine ⟨List.suffix_rfl, fun hrest more => ?_⟩
    cases cs with
    | nil => exact absurd rfl hrest
    | cons c cs =>
      unfold fraction?
      split
      · next heq =>
        cases heq
        exact absurd rfl (hpoint cs)
      · rfl

/-- An exponent leaves the rest of its text. -/
lemma exponent?_leaves (h : exponent? cs = some (ds, rest)) : Leaves exponent? cs ds rest := by
  cases cs with
  | nil =>
    cases h
    exact ⟨List.suffix_rfl, fun hrest => absurd rfl hrest⟩
  | cons c cs =>
    by_cases hmark : (c = 'e' || c = 'E') = true
    · cases cs with
      | nil =>
        rw [exponent?, if_pos hmark] at h
        cases h
      | cons s cs =>
        by_cases hsign : (s = '+' || s = '-') = true
        · simp only [exponent?, if_pos hmark, if_pos hsign] at h
          have hleaves := digits?_map_leaves (c :: s :: ·) h
          refine ⟨hleaves.suffix.trans (List.suffix_append [c, s] cs), fun hrest more => ?_⟩
          simp only [List.cons_append, exponent?, if_pos hmark, if_pos hsign]
          exact hleaves.again hrest more
        · simp only [exponent?, if_pos hmark, if_neg hsign] at h
          have hleaves := digits?_map_leaves (c :: ·) h
          refine ⟨hleaves.suffix.trans (List.suffix_cons _ _), fun hrest more => ?_⟩
          simp only [List.cons_append, exponent?, if_pos hmark, if_neg hsign]
          exact hleaves.again hrest more
    · simp only [exponent?, if_neg hmark] at h
      cases h
      refine ⟨List.suffix_rfl, fun _ more => ?_⟩
      simp only [List.cons_append, exponent?, if_neg hmark]

/-- A number is read digit by digit, and at each stage something must be left to end it. -/
lemma readUnsigned_leaves {negative : Bool} {v : Json}
    (h : readUnsigned negative cs = some (v, rest)) : Leaves (readUnsigned negative) cs v rest := by
  obtain ⟨⟨whole, rest₁⟩, hwhole, h⟩ := Option.bind_eq_some_iff.1 h
  have hleaves := digits?_leaves hwhole
  by_cases hlead : (1 < whole.length && whole.head? == some '0') = true
  · simp only [if_pos hlead] at h
    cases h
  simp only [if_neg hlead] at h
  obtain ⟨⟨frac, rest₂⟩, hfrac, h⟩ := Option.bind_eq_some_iff.1 h
  have hleaves₁ := fraction?_leaves hfrac
  obtain ⟨⟨exp, rest₃⟩, hexp, h⟩ := Option.bind_eq_some_iff.1 h
  have hleaves₂ := exponent?_leaves hexp
  obtain rfl : rest₃ = rest := by
    split at h <;> exact congrArg Prod.snd (Option.some.inj h)
  refine ⟨hleaves₂.suffix.trans (hleaves₁.suffix.trans hleaves.suffix), fun hrest more => ?_⟩
  have hrest₂ : rest₂ ≠ [] := hrest ∘ fun hnil => List.suffix_nil.1 (hnil ▸ hleaves₂.suffix)
  have hrest₁ : rest₁ ≠ [] := hrest₂ ∘ fun hnil => List.suffix_nil.1 (hnil ▸ hleaves₁.suffix)
  refine Option.bind_eq_some_iff.2 ⟨_, hleaves.again hrest₁ more, ?_⟩
  simp only [if_neg hlead]
  refine Option.bind_eq_some_iff.2 ⟨_, hleaves₁.again hrest₂ more, ?_⟩
  refine Option.bind_eq_some_iff.2 ⟨_, hleaves₂.again hrest more, ?_⟩
  split at h
  · next hempty =>
    cases h
    simp only [if_pos hempty]
  · next hempty =>
    cases h
    simp only [if_neg hempty]

/-- A number leaves the rest of its text. -/
lemma readNumber_leaves {v : Json} (h : readNumber cs = some (v, rest)) :
    Leaves readNumber cs v rest := by
  unfold readNumber at h
  split at h
  · have hleaves := readUnsigned_leaves h
    exact ⟨hleaves.suffix.trans (List.suffix_cons _ _), hleaves.again⟩
  · next hsign =>
    have hleaves := readUnsigned_leaves h
    refine ⟨hleaves.suffix, fun hrest more => ?_⟩
    cases cs with
    | nil => cases h
    | cons c cs =>
      rw [← hleaves.again hrest more]
      unfold readNumber
      split
      · next heq =>
        cases heq
        exact absurd rfl (hsign cs)
      · rfl

/-- A number begins with a sign or a digit. -/
lemma exists_of_readNumber {v : Json} (h : readNumber cs = some (v, rest)) :
    ∃ c cs', cs = c :: cs' ∧ (c = '-' ∨ c.isDigit = true) := by
  cases cs with
  | nil => cases h
  | cons c cs =>
    refine ⟨c, cs, rfl, ?_⟩
    unfold readNumber at h
    split at h
    · next heq =>
      cases heq
      exact .inl rfl
    · refine .inr (Bool.of_not_eq_false fun hdigit => ?_)
      have hdigits : digits? (c :: cs) = none := by
        unfold digits?
        rw [List.takeWhile_cons_of_neg (by simp [hdigit])]
      unfold readUnsigned at h
      rw [hdigits] at h
      cases h

end Numbers

/-! ## Values -/

/-- Whether a value that is read with some fuel leaves the rest of its text, with more fuel too. -/
def ValuesLeave (fuel : Nat) : Prop :=
  ∀ {cs rest : List Char} {v : Json}, readValue fuel cs = some (v, rest) →
    ∀ {fuel' : Nat}, fuel ≤ fuel' → Leaves (readValue fuel') cs v rest

/-- Whether items that are read with some fuel end with their bracket, with more fuel too. -/
def ItemsClose (fuel : Nat) : Prop :=
  ∀ {cs rest : List Char} {items : List Json}, readItems fuel cs = some (items, rest) →
    ∀ {fuel' : Nat}, fuel ≤ fuel' → Closes ']' (readItems fuel') cs items rest

/-- Whether fields that are read with some fuel end with their brace, with more fuel too. -/
def FieldsClose (fuel : Nat) : Prop :=
  ∀ {cs rest : List Char} {fields : List (Option String × Json)},
    readFields fuel cs = some (fields, rest) →
      ∀ {fuel' : Nat}, fuel ≤ fuel' → Closes '\x7d' (readFields fuel') cs fields rest

section Steps

variable {fuel fuel' : Nat} {cs body rest : List Char} {v : Json}

/-- What stands between an opening bracket and its closing one, or the value of an empty pair. -/
def bracketed {α : Type} (close : Char) (empty : Json) (full : α → Json)
    (inner : List Char → Option (α × List Char)) (body : List Char) : Option (Json × List Char) :=
  match skipSpace body with
  | [] => none
  | c :: rest =>
    if c = close then some (empty, rest) else (inner (c :: rest)).map fun r => (full r.1, r.2)

/-- What stands in brackets ends behind the closing one, if what is inside does. -/
lemma bracketed_closes {α : Type} {close : Char} {empty : Json} {full : α → Json}
    {inner inner' : List Char → Option (α × List Char)}
    (hinner : ∀ {cs a rest}, inner cs = some (a, rest) → Closes close inner' cs a rest)
    (h : bracketed close empty full inner body = some (v, rest)) :
    Closes close (bracketed close empty full inner') body v rest := by
  unfold bracketed at h
  split at h
  · cases h
  · next c body' hskip =>
    by_cases hclose : c = close
    · rw [if_pos hclose] at h
      cases h
      subst hclose
      refine ⟨suffix_of_skipSpace hskip, fun more => ?_⟩
      simp only [bracketed, skipSpace_more hskip, if_true]
    · rw [if_neg hclose] at h
      obtain ⟨⟨a, rest'⟩, hread, heq⟩ := Option.map_eq_some_iff.1 h
      cases heq
      have hcloses := hinner hread
      refine ⟨hcloses.suffix.trans (suffix_of_skipSpace hskip), fun more => ?_⟩
      simp only [bracketed, skipSpace_more hskip, if_neg hclose]
      rw [← List.cons_append, hcloses.again more, Option.map_some]

/-- No items are read from an empty text. -/
lemma readItems_nil (fuel : Nat) : readItems fuel [] = none := by
  cases fuel with
  | zero => rfl
  | succ fuel => cases fuel <;> rfl

/-- No fields are read from an empty text. -/
lemma readFields_nil (fuel : Nat) : readFields fuel [] = none := by
  cases fuel <;> rfl

/-- A value that begins with a bracket is a list of items. -/
lemma readValue_list (hopen : skipSpace cs = '[' :: body) :
    readValue (fuel + 1) cs = bracketed ']' (.arr []) .arr (readItems fuel) body := by
  simp only [readValue, hopen, bracketed]
  cases skipSpace body with
  | nil => simp [readItems_nil]
  | cons c body' =>
    split
    · next heq =>
      cases heq
      rfl
    · next hnot =>
      refine (if_neg ?_).symm
      rintro rfl
      exact hnot body' rfl

/-- A value that begins with a brace is a record of fields. -/
lemma readValue_record (hopen : skipSpace cs = '\x7b' :: body) :
    readValue (fuel + 1) cs = bracketed '\x7d' (.obj []) ofFields (readFields fuel) body := by
  simp only [readValue, hopen, bracketed]
  cases skipSpace body with
  | nil => simp [readFields_nil]
  | cons c body' =>
    split
    · next heq =>
      cases heq
      rfl
    · next hnot =>
      refine (if_neg ?_).symm
      rintro rfl
      exact hnot body' rfl

/-- A list ends with its bracket. -/
lemma ItemsClose.arr (hitems : ItemsClose fuel) (hopen : skipSpace cs = '[' :: body)
    (h : readValue (fuel + 1) cs = some (v, rest)) (hfuel : fuel ≤ fuel') :
    Closes ']' (readValue (fuel' + 1)) cs v rest := by
  rw [readValue_list hopen] at h
  have hcloses := bracketed_closes (fun hread => hitems hread hfuel) h
  refine ⟨hcloses.suffix.trans (rest_suffix_of_skipSpace hopen), fun more => ?_⟩
  rw [readValue_list (skipSpace_more hopen more)]
  exact hcloses.again more

/-- A record ends with its brace. -/
lemma FieldsClose.obj (hfields : FieldsClose fuel) (hopen : skipSpace cs = '\x7b' :: body)
    (h : readValue (fuel + 1) cs = some (v, rest)) (hfuel : fuel ≤ fuel') :
    Closes '\x7d' (readValue (fuel' + 1)) cs v rest := by
  rw [readValue_record hopen] at h
  have hcloses := bracketed_closes (fun hread => hfields hread hfuel) h
  refine ⟨hcloses.suffix.trans (rest_suffix_of_skipSpace hopen), fun more => ?_⟩
  rw [readValue_record (skipSpace_more hopen more)]
  exact hcloses.again more

/-- A word that is a value leaves what follows it. -/
lemma leaves_of_word {c : Char} (word : List Char) (hskip : skipSpace cs = c :: (word ++ rest))
    (hword : ∀ {cs rest}, skipSpace cs = c :: (word ++ rest) →
      readValue (fuel' + 1) cs = some (v, rest)) : Leaves (readValue (fuel' + 1)) cs v rest := by
  refine ⟨(List.suffix_append word rest).trans (rest_suffix_of_skipSpace hskip), fun _ more => ?_⟩
  apply hword
  rw [skipSpace_more hskip, List.append_assoc]

/-- Values leave their rest if the items and fields in them close. -/
lemma valuesLeave_succ (hitems : ItemsClose fuel) (hfields : FieldsClose fuel) :
    ValuesLeave (fuel + 1) := by
  intro cs rest v h fuel' hfuel
  cases fuel' with
  | zero => cases hfuel
  | succ fuel' =>
    replace hfuel := Nat.le_of_succ_le_succ hfuel
    have hvalue := h
    rw [readValue] at hvalue
    split at hvalue
    · next body hskip =>
      obtain ⟨⟨pieces, rest'⟩, hread, heq⟩ := Option.map_eq_some_iff.1 hvalue
      cases heq
      have hcloses := readPieces_closes hread
      have hstr : Closes '"' (readValue (fuel' + 1)) cs (ofPieces pieces) rest' := by
        refine ⟨hcloses.suffix.trans (rest_suffix_of_skipSpace hskip), fun more => ?_⟩
        simp only [readValue, skipSpace_more hskip, hcloses.again more, Option.map_some]
      exact hstr.leaves
    · next hskip => exact (hitems.arr hskip h hfuel).leaves
    · next hskip => exact (hfields.obj hskip h hfuel).leaves
    · next hskip =>
      cases hvalue
      exact leaves_of_word ['u', 'l', 'l'] hskip fun h => by rw [readValue, h]; rfl
    · next hskip =>
      cases hvalue
      exact leaves_of_word ['r', 'u', 'e'] hskip fun h => by rw [readValue, h]; rfl
    · next hskip =>
      cases hvalue
      exact leaves_of_word ['a', 'l', 's', 'e'] hskip fun h => by rw [readValue, h]; rfl
    · -- Numbers alone do not end by themselves, so something must be left behind them.
      obtain ⟨c, cs', hskip, hc⟩ := exists_of_readNumber hvalue
      have hleaves := readNumber_leaves hvalue
      refine ⟨hleaves.suffix.trans (List.dropWhile_suffix _), fun hrest more => ?_⟩
      rw [readValue_number hc (skipSpace_more hskip more), ← List.cons_append, ← hskip,
        hleaves.again hrest more]

/-- Items behind a first one close with their bracket. -/
lemma itemsFrom_closes (hitems : ItemsClose fuel) (hfuel : fuel ≤ fuel') {items : List Json}
    (h : itemsFrom fuel v cs = some (items, rest)) :
    Closes ']' (itemsFrom fuel' v) cs items rest := by
  unfold itemsFrom at h
  split at h
  · next body hskip =>
    obtain ⟨⟨items', rest'⟩, hread, heq⟩ := Option.map_eq_some_iff.1 h
    cases heq
    have hcloses := hitems hread hfuel
    refine ⟨hcloses.suffix.trans (rest_suffix_of_skipSpace hskip), fun more => ?_⟩
    simp only [itemsFrom, skipSpace_more hskip, hcloses.again more, Option.map_some]
  · next hskip =>
    cases h
    refine ⟨suffix_of_skipSpace hskip, fun more => ?_⟩
    simp only [itemsFrom, skipSpace_more hskip]
  · cases h

/-- Fields behind a first one close with their brace. -/
lemma fieldsFrom_closes (hfields : FieldsClose fuel) (hfuel : fuel ≤ fuel')
    {field : Option String × Json} {fields : List (Option String × Json)}
    (h : fieldsFrom fuel field cs = some (fields, rest)) :
    Closes '\x7d' (fieldsFrom fuel' field) cs fields rest := by
  unfold fieldsFrom at h
  split at h
  · next body hskip =>
    obtain ⟨⟨fields', rest'⟩, hread, heq⟩ := Option.map_eq_some_iff.1 h
    cases heq
    have hcloses := hfields hread hfuel
    refine ⟨hcloses.suffix.trans (rest_suffix_of_skipSpace hskip), fun more => ?_⟩
    simp only [fieldsFrom, skipSpace_more hskip, hcloses.again more, Option.map_some]
  · next hskip =>
    cases h
    refine ⟨suffix_of_skipSpace hskip, fun more => ?_⟩
    simp only [fieldsFrom, skipSpace_more hskip]
  · cases h

/-- Items close if the values in them leave their rest. -/
lemma itemsClose_succ (hvalues : ValuesLeave fuel) (hitems : ItemsClose fuel) :
    ItemsClose (fuel + 1) := by
  intro cs rest items h fuel' hfuel
  cases fuel' with
  | zero => cases hfuel
  | succ fuel' =>
    replace hfuel := Nat.le_of_succ_le_succ hfuel
    rw [readItems] at h
    split at h
    · cases h
    · next v rest₁ hvalue =>
      have hleaves := hvalues hvalue hfuel
      have hcloses := itemsFrom_closes hitems hfuel h
      refine ⟨hcloses.suffix.trans hleaves.suffix, fun more => ?_⟩
      rw [readItems, hleaves.again hcloses.ne_nil]
      exact hcloses.again more

/-- Fields close if the values in them leave their rest. -/
lemma fieldsClose_succ (hvalues : ValuesLeave fuel) (hfields : FieldsClose fuel) :
    FieldsClose (fuel + 1) := by
  intro cs rest fields h fuel' hfuel
  cases fuel' with
  | zero => cases hfuel
  | succ fuel' =>
    replace hfuel := Nat.le_of_succ_le_succ hfuel
    rw [readFields] at h
    split at h
    · next body hquote =>
      split at h
      · cases h
      · next pieces rest₁ hpieces =>
        have hkey := readPieces_closes hpieces
        simp only at h
        split at h
        · next rest₂ hcolon =>
          split at h
          · cases h
          · next v rest₃ hvalue =>
            have hleaves := hvalues hvalue hfuel
            have hcloses := fieldsFrom_closes hfields hfuel h
            refine ⟨hcloses.suffix.trans (hleaves.suffix.trans
              ((rest_suffix_of_skipSpace hcolon).trans
                (hkey.leaves.suffix.trans (rest_suffix_of_skipSpace hquote)))), fun more => ?_⟩
            rw [readFields, skipSpace_more hquote]
            simp only [hkey.again, skipSpace_more hcolon, hleaves.again hcloses.ne_nil]
            exact hcloses.again more
        · cases h
    · cases h

end Steps

/-- With any fuel values leave their rest, and items and fields close. -/
lemma leaves_and_closes (fuel : Nat) : ValuesLeave fuel ∧ ItemsClose fuel ∧ FieldsClose fuel := by
  -- The readers call each other with less fuel, so this is one induction for all three.
  induction fuel with
  | zero => exact ⟨nofun, nofun, nofun⟩
  | succ fuel ih =>
    obtain ⟨hvalues, hitems, hfields⟩ := ih
    exact ⟨valuesLeave_succ hitems hfields, itemsClose_succ hvalues hitems,
      fieldsClose_succ hvalues hfields⟩

/-! ## Texts of lists and records -/

/-- Whether a text begins with an opening bracket. -/
def Opens (cs : List Char) : Prop := ∃ c body, cs = c :: body ∧ (c = '[' ∨ c = '\x7b')

section Texts

variable {fuel : Nat} {cs rest p q : List Char} {v : Json}

/-- A value that begins with a bracket or brace ends behind the closing one. -/
lemma Opens.closes (hopens : Opens cs) (h : readValue fuel cs = some (v, rest)) {fuel' : Nat}
    (hfuel : fuel ≤ fuel') :
    ∃ close, (close = ']' ∨ close = '\x7d') ∧ Closes close (readValue fuel') cs v rest := by
  cases fuel with
  | zero => cases h
  | succ fuel =>
    obtain ⟨-, hitems, hfields⟩ := leaves_and_closes fuel
    cases fuel' with
    | zero => cases hfuel
    | succ fuel' =>
      replace hfuel := Nat.le_of_succ_le_succ hfuel
      obtain ⟨c, body, rfl, rfl | rfl⟩ := hopens
      · exact ⟨']', .inl rfl, hitems.arr (skipSpace_cons rfl body) h hfuel⟩
      · exact ⟨'\x7d', .inr rfl, hfields.obj (skipSpace_cons rfl body) h hfuel⟩

/-- A text that is read as a value has nothing but blanks behind it. -/
lemma readValue_of_parse? (h : parse? (String.ofList cs) = some v) :
    ∃ rest, readValue (2 * cs.length + 2) cs = some (v, rest) ∧ skipSpace rest = [] := by
  unfold parse? at h
  rw [String.toList_ofList] at h
  simp only at h
  split at h
  · next w rest hread =>
    split at h
    · next hempty =>
      cases h
      exact ⟨rest, hread, List.isEmpty_iff.1 hempty⟩
    · cases h
  · cases h

/-- No part of a text for a list or a record is a text for a value, apart from the whole. -/
theorem parse?_cut (hopens : Opens p) (hspells : Spells v (p ++ q)) (hq : q ≠ []) :
    parse? (String.ofList p) = none := by
  refine Option.eq_none_iff_forall_ne_some.2 fun w hparse => ?_
  obtain ⟨rest, hread, -⟩ := readValue_of_parse? hparse
  have hfuel : 2 * p.length + 2 ≤ 2 * (p ++ q).length := by
    have hpos := List.length_pos_iff.2 hq
    rw [List.length_append]
    omega
  obtain ⟨close, -, hcloses⟩ := hopens.closes hread hfuel
  -- In the whole text the same value would be read, and what was cut off would be left.
  have hwhole : readValue (2 * (p ++ q).length) ([] ++ (p ++ q ++ [])) = some (v, []) :=
    hspells.reads nofun nofun (Nat.le_refl _)
  rw [List.nil_append, List.append_nil, hcloses.again q] at hwhole
  exact hq (List.append_eq_nil_iff.1 (congrArg Prod.snd (Option.some.inj hwhole))).2

/-- A text that begins like a list or a record and ends with what is neither blank nor a closing
bracket holds no value. -/
theorem parse?_concat {c : Char} (hopens : Opens (cs ++ [c])) (hspace : isSpace c = false)
    (hclosing : c ≠ ']' ∧ c ≠ '\x7d') : parse? (String.ofList (cs ++ [c])) = none := by
  refine Option.eq_none_iff_forall_ne_some.2 fun w hparse => ?_
  obtain ⟨rest, hread, hrest⟩ := readValue_of_parse? hparse
  obtain ⟨close, hclose, hcloses⟩ := hopens.closes hread (Nat.le_refl _)
  -- The last character would be the closing bracket, or a blank behind it.
  obtain hnil | ⟨front, hfront, -⟩ := List.suffix_concat_iff.1 hcloses.suffix
  · cases hnil
  · cases front with
    | nil =>
      cases hfront
      exact hclose.elim hclosing.1 hclosing.2
    | cons d front =>
      cases hfront
      have hblank := List.dropWhile_eq_nil_iff.1 hrest c List.mem_concat_self
      rw [hspace] at hblank
      cases hblank

end Texts

end Saga.Json
