import Saga.Yaml.Cursor

/-!
# YAML scalars

The texts of quoted, plain and block scalars. Within a scalar a single line feed reads as a space
and each further line break as itself; the separators of lines and of paragraphs always read as
themselves. Only the block scalar headed by `|` keeps every line break.
-/

namespace Saga.Yaml

/-- What separates two words of a scalar: gaps on one line, or line breaks with the gaps around
them. -/
structure Gap where
  /-- The gaps on one line, backwards. -/
  blanks : List Char := []
  /-- Whether a line break was passed. -/
  crossed : Bool := false
  /-- The first line break, unless it was escaped. -/
  first : Option Char := none
  /-- The line breaks after the first, backwards. -/
  more : List Char := []

namespace Gap

/-- The separator after one more character, a gap or a line break. -/
def extend (g : Gap) (c : Char) : Gap :=
  if isBreak c then
    if g.crossed then { g with more := c :: g.more }
    else { crossed := true, first := some c }
  else if g.crossed then g
  else { g with blanks := c :: g.blanks }

/-- What a separator reads as. -/
def text (g : Gap) : List Char :=
  if g.crossed then
    match g.first, g.more with
    | some '\n', [] => [' ']
    | some '\n', more => more.reverse
    | first, more => first.toList ++ more.reverse
  else g.blanks.reverse

/-- Passes over gaps and line breaks that go on with a separator. -/
def take (g : Gap) (cur : Cursor) : Gap × Cursor :=
  let passed := cur.rest.takeWhile fun c => isGap c || isBreak c
  (passed.foldl extend g, cur.forward passed.length)

end Gap

/-! ## Quoted scalars -/

/-- The character written by an escape of one letter. -/
def escaped? : Char → Option Char
  | '0' => some '\x00'
  | 'a' => some '\x07'
  | 'b' => some '\x08'
  | 't' | '\t' => some '\t'
  | 'n' => some '\n'
  | 'v' => some '\x0b'
  | 'f' => some '\x0c'
  | 'r' => some '\r'
  | 'e' => some '\x1b'
  | ' ' => some ' '
  | '"' => some '"'
  | '/' => some '/'
  | '\\' => some '\\'
  | 'N' => some '\u0085'
  | '_' => some '\u00a0'
  | 'L' => some '\u2028'
  | 'P' => some '\u2029'
  | _ => none

/-- The number of digits of an escape by number. -/
def escapeWidth? : Char → Option Nat
  | 'x' => some 2
  | 'u' => some 4
  | 'U' => some 8
  | _ => none

/-- The character with the hexadecimal number `digits`. -/
def hexChar? (digits : List Char) : Option Char := do
  let n ← digits.foldlM (fun n c => do return 16 * n + (← hexDigit? c)) 0
  if n.isValidChar then some (Char.ofNat n) else none

/-- The character that an escape stands for, and how many characters follow the backslash. -/
def escape? : List Char → Option (Char × Nat)
  | [] => none
  | c :: rest =>
    match escapeWidth? c with
    | some width =>
      let digits := rest.take width
      if digits.length = width then (hexChar? digits).map (·, width + 1) else none
    | none => (escaped? c).map (·, 1)

/-- Reads the rest of a quoted scalar, whose opening quote has been passed. Between double quotes a
backslash escapes, between single ones a quote is written twice. -/
def readQuoted (double : Bool) : (fuel : Nat) → (cur : Cursor) → (done : List Char) →
    Option (String × Cursor)
  | 0, _, _ => none
  | fuel + 1, cur, done =>
    if cur.atDocumentEnd then none
    else match cur.rest with
    | [] => none
    | c :: rest =>
      if isGap c || isBreak c then
        let (gap, next) := Gap.take {} cur
        readQuoted double fuel next (gap.text.reverse ++ done)
      else if c == (if double then '"' else '\'') then
        if !double && rest.head? == some '\'' then
          readQuoted double fuel (cur.forward 2) ('\'' :: done)
        else some (String.ofList done.reverse, cur.next)
      else if double && c == '\\' then
        if rest.head?.any isBreak then
          let (gap, next) := Gap.take { crossed := true } (cur.forward 2)
          readQuoted double fuel next (gap.text.reverse ++ done)
        else do
          let (d, n) ← escape? rest
          readQuoted double fuel (cur.forward (n + 1)) (d :: done)
      else readQuoted double fuel cur.next (c :: done)

/-! ## Plain scalars -/

/-- Characters that start something other than a plain scalar. -/
def isIndicator (c : Char) : Bool :=
  c ∈ ['-', '?', ':', ',', '[', ']', '{', '}', '#', '&', '*', '!', '|', '>', '\'', '"', '%', '@',
    '\u0060']

/-- Whether a plain scalar starts here. -/
def Cursor.atPlain (cur : Cursor) (flow : Bool) : Bool :=
  match cur.rest with
  | [] => false
  | c :: rest =>
    if isGap c || isBreak c then false
    else if c == '-' then !startsBlank rest
    else if c == '?' || c == ':' then !flow && !startsBlank rest
    else !isIndicator c

/-- The length of the word of a plain scalar at the front of a text. In a flow collection a colon
right before one of its marks belongs nowhere. -/
def wordLength (flow : Bool) : List Char → Option Nat
  | [] => some 0
  | c :: rest =>
    if isGap c || isBreak c then some 0
    else if flow && c == ':' && rest.head?.any (fun d => isFlowMark d || d == '?') then none
    else if (c == ':' && startsBlank rest) || (flow && isFlowMark c) then some 0
    else (wordLength flow rest).map (· + 1)

/-- Whether a tab stands where a line is indented to the column `indent`. -/
def abusesTab (indent : Nat) : (column : Nat) → (crossed : Bool) → List Char → Bool
  | _, _, [] => false
  | column, crossed, c :: rest =>
    if isBreak c then abusesTab indent 0 true rest
    else if c == '\t' then
      (crossed && column < indent) || abusesTab indent (column + 1) crossed rest
    else if c == ' ' then abusesTab indent (column + 1) crossed rest
    else false

/-- A plain scalar that was read. -/
structure PlainText where
  text : String
  /-- The place after the scalar and the separator that follows it. -/
  after : Cursor
  /-- Whether that separator holds a line break. -/
  crossed : Bool

/-- Reads a plain scalar that continues on lines indented to the column `indent` or further, and in
a flow collection on every line. -/
def readPlain (flow : Bool) (indent : Nat) : (fuel : Nat) → (gap : Gap) → (cur : Cursor) →
    (done : List Char) → Option PlainText
  | 0, _, _, _ => none
  | fuel + 1, gap, cur, done =>
    let stop (gap : Gap) (cur : Cursor) (done : List Char) : PlainText :=
      ⟨String.ofList done.reverse, cur, gap.crossed⟩
    if cur.atDocumentEnd || cur.sees '#' then some (stop gap cur done)
    else do
      let n ← wordLength flow cur.rest
      if n = 0 then return stop gap cur done
      let done := (gap.text ++ cur.rest.take n).reverse ++ done
      let after := cur.forward n
      let (gap, next) := Gap.take {} after
      if abusesTab indent after.column false after.rest then none
      else if next.column == after.column && next.line == after.line then
        return stop {} after done
      else if !flow && next.column < indent then return stop gap next done
      else readPlain flow indent fuel gap next done

/-! ## Block scalars -/

/-- What becomes of the line breaks that end a block scalar. -/
inductive Chomp where
  | strip | clip | keep
  deriving DecidableEq, Repr

/-- The header of a block scalar. -/
structure BlockHeader where
  literal : Bool
  chomp : Chomp := .clip
  indent : Option Nat := none

namespace BlockHeader

/-- What a mark says about the last line breaks. -/
def chomp? : Char → Option Chomp
  | '+' => some .keep
  | '-' => some .strip
  | _ => none

/-- Reads what may follow `|` and `>`: a mark for the last line breaks and a digit for the
indentation, once each and in any order. -/
def read (h : BlockHeader) (cur : Cursor) : Option (BlockHeader × Cursor) :=
  let (h, cur) := readChomp h cur
  match cur.rest with
  | c :: _ =>
    if c == '0' then none
    else if c.isDigit then
      let h' := { h with indent := some (c.toNat - 48) }
      some (if h.chomp == .clip then readChomp h' cur.next else (h', cur.next))
    else some (h, cur)
  | [] => some (h, cur)
where
  /-- Reads the mark for the last line breaks, if it stands here. -/
  readChomp (h : BlockHeader) (cur : Cursor) : BlockHeader × Cursor :=
    match cur.rest.head?.bind chomp? with
    | some chomp => ({ h with chomp }, cur.next)
    | none => (h, cur)

end BlockHeader

/-- Passes over line breaks and the spaces of an indentation, which is all spaces while the
indentation is not known. The answer holds the deepest column reached and the line breaks; those
before stand backwards in `breaks`. -/
def skipIndentation (indent : Option Nat) : (fuel : Nat) → (deepest : Nat) → (breaks : List Char) →
    (cur : Cursor) → Option (Nat × List Char × Cursor)
  | 0, _, _, _ => none
  | fuel + 1, deepest, breaks, cur =>
    let deepest := max deepest cur.column
    let inside := indent.all (cur.column < ·)
    match cur.rest with
    | [] => some (deepest, breaks.reverse, cur)
    | c :: _ =>
      if c == ' ' && inside then skipIndentation indent fuel deepest breaks cur.next
      else if c == '\t' && inside then none
      else if isBreak c then skipIndentation indent fuel deepest (c :: breaks) cur.next
      else some (deepest, breaks.reverse, cur)

/-- The lines of a block scalar that were read. -/
structure BlockText where
  /-- The text before the line break that ended the last line, backwards. -/
  done : List Char := []
  /-- The line break that ended the last line. -/
  first : Option Char := none
  /-- The line breaks after that one. -/
  more : List Char := []
  /-- Whether the last line starts with a gap. -/
  gap : Bool := false

namespace BlockText

/-- The text after one more line, which ends with the line break `ended`. A line feed between two
lines without gaps in front is folded, unless the scalar is literal. -/
def add (t : BlockText) (literal : Bool) (line : List Char) (ended : Option Char)
    (more : List Char) : BlockText :=
  let gap := line.head?.any isGap
  let joint :=
    if !literal && t.first == some '\n' && !t.gap && !gap then
      if t.more.isEmpty then [' '] else []
    else t.first.toList
  ⟨(joint ++ t.more ++ line).reverse ++ t.done, ended, more, gap⟩

/-- The text with the line breaks at its end that are asked for. -/
def finish (t : BlockText) : Chomp → String
  | .strip => String.ofList t.done.reverse
  | .clip => String.ofList (t.done.reverse ++ t.first.toList)
  | .keep => String.ofList (t.done.reverse ++ t.first.toList ++ t.more)

/-- Reads the lines that are indented to the column `indent`. -/
def readLines (literal : Bool) (indent : Nat) : (fuel : Nat) → (t : BlockText) → (cur : Cursor) →
    Option (BlockText × Cursor)
  | 0, _, _ => none
  | fuel + 1, t, cur =>
    if cur.column == indent && !cur.isOver then do
      let text := cur.rest.takeWhile fun c => !isBreak c
      let after := cur.forward text.length
      let (_, more, next) ←
        skipIndentation (some indent) (fuel + 1) 0 [] after.next
      readLines literal indent fuel (t.add literal text after.rest.head? more) next
    else some (t, cur)

end BlockText

/-- Reads a block scalar whose lines are to be indented to the column `least` at least. -/
def readBlock (least fuel : Nat) (cur : Cursor) : Option (String × Cursor) := do
  let (h, cur) ← BlockHeader.read { literal := cur.sees '|' } cur.next
  let start ← cur.skipLine?
  let given := h.indent.map fun n => n + (least - 1)
  let (deepest, more, first) ← skipIndentation given fuel 0 [] start
  let indent := given.getD (max (max deepest least) 1)
  let (t, after) ← BlockText.readLines h.literal indent fuel { more } first
  return (t.finish h.chomp, after)

end Saga.Yaml
