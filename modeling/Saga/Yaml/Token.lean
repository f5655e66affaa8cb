import Saga.Yaml.Scalar
import Saga.Yaml.Tag

/-!
# YAML tokens

A text is read into tokens from left to right. Block collections are told by the columns in which
their entries start: the first entry opens one, and a line further left closes it. Whether a scalar
is a key shows only at the colon behind it, so the lexer remembers the places where a key may have
started and puts the tokens in front of it when the colon comes.
-/

namespace Saga.Yaml

/-- A token. -/
inductive Token where
  | directive (d : Directive)
  | documentStart
  | documentEnd
  /-- A block sequence starts. -/
  | blockSequence
  /-- A block mapping starts. -/
  | blockMapping
  /-- A block collection ends. -/
  | blockEnd
  | openSequence
  | closeSequence
  | openMapping
  | closeMapping
  | dash
  | comma
  | key
  | value
  | reference (name : String)
  | anchor (name : String)
  | tag (t : WrittenTag)
  | scalar (text : String) (style : Style)
  deriving DecidableEq, Repr

/-- The longest text of a key without a mark, in bytes. -/
def keyLimit : Nat := 1024

/-- A place where a key without a mark may have started. -/
structure KeyStart where
  /-- The number of tokens before the key. -/
  position : Nat
  offset : Nat
  line : Nat
  column : Nat
  /-- Whether the block collection around it can hold nothing but a key here. -/
  required : Bool

/-- The tokens that were read, and where and how to go on. -/
structure Lexer where
  cur : Cursor
  /-- More than the number of steps that a reader takes: one for each character of the text, and
  one. -/
  steps : Nat
  tokens : Array Token := #[]
  /-- The columns of the open block collections, the innermost first. -/
  columns : List Nat := []
  /-- Where a key may have started in the innermost flow collection. -/
  keyStart : Option KeyStart := none
  /-- Where keys may have started around the open flow collections, the innermost first. -/
  outer : List (Option KeyStart) := []
  /-- Whether a key may start here. -/
  keys : Bool := true

namespace Lexer

/-- Whether a flow collection is open. -/
def inFlow (l : Lexer) : Bool := !l.outer.isEmpty

/-- The column from which on something stands inside the innermost block collection. -/
def least (l : Lexer) : Nat := l.columns.head?.elim 0 (· + 1)

/-- Appends a token and goes on at a place. -/
def emit (l : Lexer) (t : Token) (cur : Cursor) : Lexer :=
  { l with tokens := l.tokens.push t, cur }

/-- Opens a block collection in a column, unless one is open there. Its token takes the given
position. -/
def openBlock (l : Lexer) (column position : Nat) (t : Token) : Lexer :=
  if l.inFlow || column < l.least then l
  else
    { l with
      columns := column :: l.columns
      tokens := l.tokens.insertIdxIfInBounds position t }

/-- Closes the block collections in columns beyond `column`, or all of them. -/
def closeBlocks (l : Lexer) (column : Option Nat) : Lexer :=
  if l.inFlow then l
  else
    let n := (l.columns.takeWhile fun c => column.all (· < c)).length
    { l with
      columns := l.columns.drop n
      tokens := l.tokens ++ Array.replicate n .blockEnd }

/-- Gives up on a key. One that is required cannot be given up. -/
def giveUp (start : Option KeyStart) : Option (Option KeyStart) :=
  if start.any KeyStart.required then none else some none

/-- Gives up on the key that may have started in the innermost collection. -/
def dropKey (l : Lexer) : Option Lexer := do return { l with keyStart := ← giveUp l.keyStart }

/-- A key that may still have its colon: it stands on one line and is not too long. -/
def stillOpen (cur : Cursor) (start : Option KeyStart) : Option (Option KeyStart) :=
  if start.any fun s => s.line < cur.line || s.offset + keyLimit < cur.offset then giveUp start
  else some start

/-- Gives up on the keys that cannot have their colon any more. -/
def dropOldKeys (l : Lexer) : Option Lexer := do
  return { l with
    keyStart := ← stillOpen l.cur l.keyStart
    outer := ← l.outer.mapM (stillOpen l.cur) }

/-- Remembers that a key may start here, if one may. -/
def startKey (l : Lexer) : Option Lexer :=
  if l.keys then do
    let l ← l.dropKey
    let start : KeyStart :=
      { position := l.tokens.size
        offset := l.cur.offset
        line := l.cur.line
        column := l.cur.column
        required := !l.inFlow && l.columns.head? == some l.cur.column }
    return { l with keyStart := some start }
  else some l

/-! ## Tokens of one kind -/

/-- Reads a directive. -/
def readDirective (l : Lexer) : Option Lexer := do
  let l ← (l.closeBlocks none).dropKey
  let (d, after) ← Yaml.readDirective l.cur
  return { l.emit (.directive d) after with keys := false }

/-- Reads the marker of the start or the end of a document. -/
def readMarker (l : Lexer) (t : Token) : Option Lexer := do
  let l ← (l.closeBlocks none).dropKey
  return { l.emit t (l.cur.forward 3) with keys := false }

/-- Reads the mark that opens a flow collection. -/
def readOpening (l : Lexer) (t : Token) : Option Lexer := do
  let l ← l.startKey
  return { l.emit t l.cur.next with keyStart := none, outer := l.keyStart :: l.outer, keys := true }

/-- Reads the mark that closes a flow collection. -/
def readClosing (l : Lexer) (t : Token) : Option Lexer := do
  let l ← l.dropKey
  return { l.emit t l.cur.next with
    keyStart := l.outer.head?.join, outer := l.outer.drop 1, keys := false }

/-- Reads the comma between the entries of a flow collection. -/
def readComma (l : Lexer) : Option Lexer := do
  let l ← l.dropKey
  return { l.emit .comma l.cur.next with keys := true }

/-- Opens a block collection for a mark that stands here. -/
def openBlockHere (l : Lexer) (t : Token) : Option Lexer :=
  if l.inFlow then some l
  else if l.keys then some (l.openBlock l.cur.column l.tokens.size t)
  else none

/-- Reads the dash in front of an item of a block sequence. -/
def readDash (l : Lexer) : Option Lexer := do
  let l ← (← l.openBlockHere .blockSequence).dropKey
  return { l.emit .dash l.cur.next with keys := true }

/-- Reads the question mark in front of a key. -/
def readKeyMark (l : Lexer) : Option Lexer := do
  let l ← (← l.openBlockHere .blockMapping).dropKey
  return { l.emit .key l.cur.next with keys := !l.inFlow }

/-- Reads the colon between a key and its value. -/
def readColon (l : Lexer) : Option Lexer :=
  match l.keyStart with
  | some start =>
    let marked := { l with tokens := l.tokens.insertIdxIfInBounds start.position .key }
    let opened := marked.openBlock start.column start.position .blockMapping
    some { opened.emit .value l.cur.next with keyStart := none, keys := false }
  | none => do
    let l ← l.openBlockHere .blockMapping
    return { l.emit .value l.cur.next with keys := !l.inFlow }

/-- Reads the name of an alias or an anchor. -/
def readNamed (l : Lexer) (t : String → Token) : Option Lexer := do
  let l ← l.startKey
  let (name, after) ← readName l.cur.next
  return { l.emit (t name) after with keys := false }

/-- Reads a tag. -/
def readTag (l : Lexer) : Option Lexer := do
  let l ← l.startKey
  let (t, after) ← Yaml.readTag l.inFlow l.cur
  return { l.emit (.tag t) after with keys := false }

/-- Reads a block scalar. -/
def readBlock (l : Lexer) : Option Lexer := do
  let l ← l.dropKey
  let (text, after) ← Yaml.readBlock l.least l.steps l.cur
  return { l.emit (.scalar text (if l.cur.sees '|' then .literal else .folded)) after with
    keys := true }

/-- Reads a quoted scalar. -/
def readQuoted (l : Lexer) : Option Lexer := do
  let l ← l.startKey
  let (text, after) ← Yaml.readQuoted (l.cur.sees '"') l.steps l.cur.next []
  return { l.emit (.scalar text .quoted) after with keys := false }

/-- Reads a plain scalar. A line break behind it lets a key start. -/
def readPlain (l : Lexer) : Option Lexer := do
  let l ← l.startKey
  if !l.cur.atPlain l.inFlow then none
  let p ← Yaml.readPlain l.inFlow l.least l.steps {} l.cur []
  return { l.emit (.scalar p.text .plain) p.after with keys := p.crossed }

/-! ## All tokens -/

/-- Reads the token that starts here. -/
def readToken (l : Lexer) : Option Lexer :=
  let cur := l.cur
  let mark (c : Char) : Bool := cur.atIndicator c || (l.inFlow && cur.sees c)
  if cur.column == 0 && cur.sees '%' then l.readDirective
  else if cur.atMarker '-' then l.readMarker .documentStart
  else if cur.atMarker '.' then l.readMarker .documentEnd
  else if cur.sees '[' then l.readOpening .openSequence
  else if cur.sees '{' then l.readOpening .openMapping
  else if cur.sees ']' then l.readClosing .closeSequence
  else if cur.sees '}' then l.readClosing .closeMapping
  else if cur.sees ',' then l.readComma
  else if cur.atIndicator '-' then l.readDash
  else if mark '?' then l.readKeyMark
  else if mark ':' then l.readColon
  else if cur.sees '*' then l.readNamed .reference
  else if cur.sees '&' then l.readNamed .anchor
  else if cur.sees '!' then l.readTag
  else if !l.inFlow && (cur.sees '|' || cur.sees '>') then l.readBlock
  else if cur.sees '\'' || cur.sees '"' then l.readQuoted
  else l.readPlain

/-- Reads the tokens up to the end of the text. -/
def readTokens : (fuel : Nat) → (l : Lexer) → Option (List Token)
  | 0, _ => none
  | fuel + 1, l => do
    let (cur, keys) := l.cur.between l.inFlow l.steps l.keys
    let l ← ({ l with cur, keys } : Lexer).dropOldKeys
    if cur.isOver then
      let l ← (l.closeBlocks none).dropKey
      return l.tokens.toList
    else readTokens fuel (← (l.closeBlocks (some cur.column)).readToken)

end Lexer

/-- The tokens of a text whose line breaks are unified. Each takes a character at least. -/
def tokens? (text : List Char) : Option (List Token) :=
  let steps := text.length + 1
  Lexer.readTokens steps { cur := { rest := text }, steps }

end Saga.Yaml
