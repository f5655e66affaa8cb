/-!
# Places in a YAML text

A cursor is the rest of a text together with the place where it starts. The tests here look at what
comes next; `between` passes over everything that separates two tokens.
-/

namespace Saga.Yaml

/-- A place in a text. -/
structure Cursor where
  rest : List Char
  /-- The number of bytes before the place. -/
  offset : Nat := 0
  line : Nat := 0
  column : Nat := 0
  deriving Inhabited, Repr

/-- The mark that may start a text to tell the order of its bytes. -/
def byteOrderMark : Char := '\ufeff'

/-- Characters that may stand in a document. -/
def isPrintable (c : Char) : Bool :=
  let n := c.toNat
  n == 0x09 || n == 0x0a || n == 0x0d || (0x20 ≤ n && n ≤ 0x7e) || n == 0x85 ||
    (0xa0 ≤ n && n ≤ 0xd7ff) || (0xe000 ≤ n && n ≤ 0xfffd) || 0x10000 ≤ n

/-- The same text with one line feed for each line break, save for the separators of lines and of
paragraphs. -/
def unifyBreaks : List Char → List Char
  | [] => []
  | '\r' :: '\n' :: rest => '\n' :: unifyBreaks rest
  | '\r' :: rest => '\n' :: unifyBreaks rest
  | c :: rest => (if c.toNat = 0x85 then '\n' else c) :: unifyBreaks rest

/-- Whether a character separates words on a line. -/
def isGap (c : Char) : Bool := c == ' ' || c == '\t'

/-- Whether a character ends a line. -/
def isBreak (c : Char) : Bool := c == '\n' || c == '\u2028' || c == '\u2029'

/-- Whether a text starts with a gap or a line break, or is over. -/
def startsBlank : List Char → Bool
  | [] => true
  | c :: _ => isGap c || isBreak c

/-- Characters that delimit flow collections. -/
def isFlowMark (c : Char) : Bool := c == ',' || c == '[' || c == ']' || c == '{' || c == '}'

/-- Characters of names. -/
def isNameChar (c : Char) : Bool := c.isAlphanum || c == '_' || c == '-'

/-- The value of a hexadecimal digit. -/
def hexDigit? (c : Char) : Option Nat :=
  if c.isDigit then some (c.toNat - 48)
  else if 'a' ≤ c && c ≤ 'f' then some (c.toNat - 87)
  else if 'A' ≤ c && c ≤ 'F' then some (c.toNat - 55)
  else none

namespace Cursor

/-- The place after the next character. -/
def next (cur : Cursor) : Cursor :=
  match cur.rest with
  | [] => cur
  | c :: rest =>
    if isBreak c then ⟨rest, cur.offset + c.utf8Size, cur.line + 1, 0⟩
    else ⟨rest, cur.offset + c.utf8Size, cur.line, cur.column + 1⟩

/-- The place after the next `n` characters. -/
def forward (cur : Cursor) : (n : Nat) → Cursor
  | 0 => cur
  | n + 1 => cur.next.forward n

/-- The place after the characters that satisfy `p`. -/
def skipWhile (cur : Cursor) (p : Char → Bool) : Cursor :=
  cur.forward (cur.rest.takeWhile p).length

/-- Whether the text has no more characters. -/
def isOver (cur : Cursor) : Bool := cur.rest.isEmpty

/-- Whether the character `c` comes next. -/
def sees (cur : Cursor) (c : Char) : Bool := cur.rest.head? == some c

/-- Whether the indicator `c` stands here, followed by a gap, a line break or the end. -/
def atIndicator (cur : Cursor) (c : Char) : Bool :=
  match cur.rest with
  | d :: rest => d == c && startsBlank rest
  | [] => false

/-- Whether a line ends here. -/
def atLineEnd (cur : Cursor) : Bool := cur.rest.head?.all isBreak

/-- Whether a document marker made of `mark` starts here. -/
def atMarker (cur : Cursor) (mark : Char) : Bool :=
  cur.column == 0 && cur.rest.take 3 == [mark, mark, mark] && startsBlank (cur.rest.drop 3)

/-- Whether a marker ends the document here. -/
def atDocumentEnd (cur : Cursor) : Bool := cur.atMarker '-' || cur.atMarker '.'

/-- Passes over gaps on the line. -/
def skipGaps (cur : Cursor) : Cursor := cur.skipWhile isGap

/-- Passes over a comment, if one starts here. -/
def skipComment (cur : Cursor) : Cursor :=
  if cur.sees '#' then cur.skipWhile fun c => !isBreak c else cur

/-- Passes over gaps and a comment, after which the line must end. -/
def skipLine? (cur : Cursor) : Option Cursor :=
  let stop := cur.skipGaps.skipComment
  if stop.atLineEnd then some stop.next else none

/-- Passes over what stands between two tokens: blanks, comments, line breaks, and a byte order mark
at the start of a line. Tabs count as blanks in a flow collection and where no key may start; after
a line break outside of flow collections one may. The answer tells whether a key may start. -/
def between (flow : Bool) : (fuel : Nat) → (keys : Bool) → (cur : Cursor) → Cursor × Bool
  | 0, keys, cur => (cur, keys)
  | fuel + 1, keys, cur =>
    let start := if cur.column == 0 && cur.sees byteOrderMark then cur.next else cur
    let stop := (start.skipWhile fun c => c == ' ' || (c == '\t' && (flow || !keys))).skipComment
    if stop.rest.head?.any isBreak then between flow fuel (keys || !flow) stop.next
    else (stop, keys)

end Cursor

end Saga.Yaml
