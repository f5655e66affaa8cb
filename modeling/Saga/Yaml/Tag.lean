import Saga.Yaml.Basic
import Saga.Yaml.Cursor

/-!
# Names, tags and directives

The names of anchors, the tags in front of nodes and the directives in front of documents. A tag is
written whole between `<` and `>`, or as a handle and a suffix; directives say what handles stand
for.
-/

namespace Saga.Yaml

/-- Reads the name of an anchor. -/
def readName (cur : Cursor) : Option (String × Cursor) :=
  let name := cur.rest.takeWhile isNameChar
  let after := cur.forward name.length
  let ends := startsBlank after.rest ||
    after.rest.head?.any (· ∈ ['?', ':', ',', ']', '}', '%', '@', '\u0060'])
  if name.isEmpty || !ends then none else some (String.ofList name, after)

/-! ## Tags -/

/-- Characters that a tag may hold, in some places also the marks of flow collections. -/
def isTagChar (marks : Bool) (c : Char) : Bool :=
  isNameChar c || c ∈ [';', '/', '?', ':', '@', '&', '=', '+', '$', '.', '!', '~', '*', '\'', '(',
    ')'] || (marks && (c == ',' || c == '[' || c == ']'))

/-- The byte that is written as a percent sign and two hexadecimal digits. -/
def escapedByte? (cur : Cursor) : Option (UInt8 × Cursor) :=
  match cur.rest with
  | '%' :: a :: b :: _ => do
    return (UInt8.ofNat (16 * (← hexDigit? a) + (← hexDigit? b)), cur.forward 3)
  | _ => none

/-- The number of bytes of a character whose first byte this is. -/
def byteCount? (first : UInt8) : Option Nat :=
  if first < 0x80 then some 1
  else if first &&& 0xe0 = 0xc0 then some 2
  else if first &&& 0xf0 = 0xe0 then some 3
  else if first &&& 0xf8 = 0xf0 then some 4
  else none

/-- Reads `n` escaped bytes that go on with a character. -/
def readFurtherBytes : (n : Nat) → (cur : Cursor) → Option (Tag × Cursor)
  | 0, cur => some ([], cur)
  | n + 1, cur => do
    let (byte, after) ← escapedByte? cur
    if byte &&& 0xc0 = 0x80 then
      let (more, after) ← readFurtherBytes n after
      return (byte :: more, after)
    else none

/-- Reads the escaped bytes of one character. -/
def readEscapedBytes (cur : Cursor) : Option (Tag × Cursor) := do
  let (first, after) ← escapedByte? cur
  let (more, after) ← readFurtherBytes ((← byteCount? first) - 1) after
  return (first :: more, after)

/-- Reads the text of a tag after the bytes of `done`, which stand backwards. -/
def readTagText (marks : Bool) : (fuel : Nat) → (cur : Cursor) → (done : Tag) →
    Option (Tag × Cursor)
  | 0, _, _ => none
  | fuel + 1, cur, done =>
    match cur.rest with
    | [] => some (done.reverse, cur)
    | c :: _ =>
      if c == '%' then do
        let (bytes, after) ← readEscapedBytes cur
        readTagText marks fuel after (bytes.reverse ++ done)
      else if isTagChar marks c then
        readTagText marks fuel cur.next (UInt8.ofNat c.toNat :: done)
      else some (done.reverse, cur)

/-- Reads the text of a tag that starts with the bytes of `start`. -/
def readTagFrom (marks : Bool) (start : Tag) (cur : Cursor) : Option (Tag × Cursor) :=
  let length := (cur.rest.takeWhile fun c => c == '%' || isTagChar marks c).length
  readTagText marks (length + 1) cur start.reverse

/-- Reads a text that must not be empty. A zero byte ends it, whatever follows. -/
def readTagPart (marks : Bool) (cur : Cursor) : Option (Tag × Cursor) := do
  let (text, after) ← readTagFrom marks [] cur
  if text.isEmpty then none else return (text.takeWhile (· != 0), after)

/-- Reads a handle: an exclamation mark, and a name that may end in another one. -/
def readHandle (cur : Cursor) : Option (String × Cursor) :=
  if !cur.sees '!' then none
  else
    let name := cur.next.rest.takeWhile isNameChar
    let after := cur.next.forward name.length
    if after.sees '!' then some (String.ofList ('!' :: name ++ ['!']), after.next)
    else some (String.ofList ('!' :: name), after)

/-- A tag as it stands in front of a node. Without a handle the suffix is all of it. -/
structure WrittenTag where
  handle : String
  suffix : Tag
  deriving DecidableEq, Repr

/-- Whether a handle was closed by a second exclamation mark. -/
def isClosedHandle (handle : String) : Bool := 1 < handle.length && handle.endsWith "!"

/-- Reads a tag that is not between `<` and `>`. -/
def readShortTag (cur : Cursor) : Option (WrittenTag × Cursor) := do
  let (handle, after) ← readHandle cur
  if isClosedHandle handle then
    let (suffix, after) ← readTagPart false after
    return (⟨handle, suffix⟩, after)
  else
    let name := Tag.ofText (String.ofList (handle.toList.drop 1))
    let (text, after) ← readTagFrom false name after
    let suffix := text.takeWhile (· != 0)
    return (if suffix.isEmpty then ⟨"", Tag.ofText "!"⟩ else ⟨"!", suffix⟩, after)

/-- Reads a tag between `<` and `>`. -/
def readWholeTag (cur : Cursor) : Option (WrittenTag × Cursor) := do
  let (suffix, after) ← readTagPart true (cur.forward 2)
  if after.sees '>' then return (⟨"", suffix⟩, after.next) else none

/-- Reads a tag. -/
def readTag (flow : Bool) (cur : Cursor) : Option (WrittenTag × Cursor) := do
  let (tag, after) ← if cur.next.sees '<' then readWholeTag cur else readShortTag cur
  if startsBlank after.rest || (flow && after.sees ',') then return (tag, after) else none

/-! ## Directives -/

/-- What may be said in front of a document. -/
inductive Directive where
  | version (major minor : Nat)
  /-- Says what the tags with a handle start with. -/
  | tag (handle : String) (stem : Tag)
  deriving DecidableEq, Repr

/-- Reads a number of at most nine digits. -/
def readVersionPart (cur : Cursor) : Option (Nat × Cursor) :=
  let digits := cur.rest.takeWhile Char.isDigit
  if digits.isEmpty || 9 < digits.length then none
  else some (Nat.ofDigitChars 10 digits 0, cur.forward digits.length)

/-- Reads the version that a directive names. -/
def readVersion (cur : Cursor) : Option (Directive × Cursor) := do
  let (major, after) ← readVersionPart cur.skipGaps
  if !after.sees '.' then none
  let (minor, after) ← readVersionPart after.next
  return (.version major minor, after)

/-- Reads a handle, which must be closed or the mark alone, and what it stands for. -/
def readTagDirective (cur : Cursor) : Option (Directive × Cursor) := do
  let (handle, after) ← readHandle cur.skipGaps
  if !(handle = "!" || isClosedHandle handle) || !after.rest.head?.any isGap then none
  let (stem, after) ← readTagPart true after.skipGaps
  if startsBlank after.rest then return (.tag handle stem, after) else none

/-- Reads a directive, with the line that it stands on. -/
def readDirective (cur : Cursor) : Option (Directive × Cursor) := do
  let start := cur.next
  let name := start.rest.takeWhile isNameChar
  let after := start.forward name.length
  if !startsBlank after.rest then none
  let (d, after) ← match String.ofList name with
    | "YAML" => readVersion after
    | "TAG" => readTagDirective after
    | _ => none
  return (d, ← after.skipLine?)

end Saga.Yaml
