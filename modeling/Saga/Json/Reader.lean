import Saga.Json.Basic

/-!
# Reading JSON

`parse?` reads a text that holds one value and nothing but blanks around it. Numbers have no
leading zero, strings no raw control character, lists no trailing comma. The fields of an object
come back as they stand, repeated keys included: whoever reads a record decides about those.
-/

namespace Saga.Json

/-- The blanks that may stand between tokens. -/
def isSpace (c : Char) : Bool := c == ' ' || c == '\n' || c == '\t' || c == '\r'

/-- The text from its first character that is no blank. -/
def skipSpace (cs : List Char) : List Char := cs.dropWhile isSpace

/-- The value of a hexadecimal digit of either case. -/
def hexValue? (c : Char) : Option Nat :=
  let n := c.toNat
  if 48 ≤ n && n ≤ 57 then some (n - 48)
  else if 97 ≤ n && n ≤ 102 then some (n - 87)
  else if 65 ≤ n && n ≤ 70 then some (n - 55)
  else none

/-- The 16-bit unit written by four hexadecimal digits. -/
def unit? (a b c d : Char) : Option Nat := do
  return (((← hexValue? a) * 16 + (← hexValue? b)) * 16 + (← hexValue? c)) * 16 + (← hexValue? d)

/-- Whether a unit is the first half of a surrogate pair. -/
def isHighSurrogate (u : Nat) : Bool := 0xd800 ≤ u && u < 0xdc00

/-- Whether a unit is the second half of a surrogate pair. -/
def isLowSurrogate (u : Nat) : Bool := 0xdc00 ≤ u && u < 0xe000

/-- The character that a surrogate pair stands for. -/
def pairChar (high low : Nat) : Char :=
  Char.ofNat (0x10000 + (high - 0xd800) * 0x400 + (low - 0xdc00))

/-- The character that a one-letter escape stands for. -/
def shortEscape? (c : Char) : Option Char :=
  if c = '"' then some '"'
  else if c = '\\' then some '\\'
  else if c = '/' then some '/'
  else if c = 'b' then some (Char.ofNat 8)
  else if c = 'f' then some (Char.ofNat 12)
  else if c = 'n' then some '\n'
  else if c = 'r' then some '\r'
  else if c = 't' then some '\t'
  else none

/-- A piece of a string literal: a character, or the 16-bit unit of a numeric escape. -/
inductive Piece where
  | char (c : Char)
  | unit (u : Nat)
  deriving DecidableEq, Repr

/-- Puts a piece before the ones that were read. -/
def pushPiece (p : Piece) : Option (List Piece × List Char) → Option (List Piece × List Char) :=
  Option.map fun r => (p :: r.1, r.2)

/-- The pieces of a string literal after its opening quote, and what follows its closing quote. -/
def readPieces : List Char → Option (List Piece × List Char)
  | [] => none
  | '"' :: rest => some ([], rest)
  | '\\' :: 'u' :: a :: b :: c :: d :: rest =>
    match unit? a b c d with
    | none => none
    | some u => pushPiece (.unit u) (readPieces rest)
  | '\\' :: e :: rest =>
    match shortEscape? e with
    | none => none
    | some c => pushPiece (.char c) (readPieces rest)
  | c :: rest => if c = '\\' || c.toNat < 32 then none else pushPiece (.char c) (readPieces rest)

/-- The text of the pieces, if every half of a surrogate pair stands beside its other half. -/
def joinPieces : List Piece → Option (List Char)
  | [] => some []
  | .char c :: rest => (joinPieces rest).map (c :: ·)
  | .unit u :: .unit v :: rest =>
    if isHighSurrogate u then
      if isLowSurrogate v then (joinPieces rest).map (pairChar u v :: ·) else none
    else if isLowSurrogate u then none
    else (joinPieces (.unit v :: rest)).map (Char.ofNat u :: ·)
  | .unit u :: rest =>
    if isHighSurrogate u || isLowSurrogate u then none
    else (joinPieces rest).map (Char.ofNat u :: ·)

/-- The digits at the front of a text, of which there must be one, and what follows them. -/
def digits? (cs : List Char) : Option (List Char × List Char) :=
  match cs.takeWhile Char.isDigit with
  | [] => none
  | ds => some (ds, cs.dropWhile Char.isDigit)

/-- The fraction of a number, if one starts here. -/
def fraction? : List Char → Option (List Char × List Char)
  | '.' :: rest => (digits? rest).map fun r => ('.' :: r.1, r.2)
  | cs => some ([], cs)

/-- The exponent of a number, if one starts here. -/
def exponent? : List Char → Option (List Char × List Char)
  | c :: rest =>
    if c = 'e' || c = 'E' then
      match rest with
      | s :: rest' =>
        if s = '+' || s = '-' then (digits? rest').map fun r => (c :: s :: r.1, r.2)
        else (digits? rest).map fun r => (c :: r.1, r.2)
      | [] => none
    else some ([], c :: rest)
  | [] => some ([], [])

/-- The value of an integer literal: its number if that is one of 64 bits, else the literal. A zero
with a sign is no integer. -/
def ofIntegerLiteral (negative : Bool) (digits : List Char) : Json :=
  let n := Nat.ofDigitChars 10 digits 0
  if negative then
    if 0 < n && Int64.minValue.toInt ≤ -(n : Int) then .int (-(n : Int))
    else .real (String.ofList ('-' :: digits))
  else if n < UInt64.size then .int n
  else .real (String.ofList digits)

/-- A number after its sign. -/
def readUnsigned (negative : Bool) (cs : List Char) : Option (Json × List Char) := do
  let (whole, rest) ← digits? cs
  if 1 < whole.length && whole.head? == some '0' then none
  else
    let (frac, rest) ← fraction? rest
    let (exp, rest) ← exponent? rest
    if frac.isEmpty && exp.isEmpty then some (ofIntegerLiteral negative whole, rest)
    else
      let literal := whole ++ frac ++ exp
      some (.real (String.ofList (if negative then '-' :: literal else literal)), rest)

/-- A number. -/
def readNumber : List Char → Option (Json × List Char)
  | '-' :: rest => readUnsigned true rest
  | cs => readUnsigned false cs

/-- The value of a string literal. -/
def ofPieces (pieces : List Piece) : Json :=
  match joinPieces pieces with
  | some text => .str (String.ofList text)
  | none => .unreadable

/-- The object with some fields, whose keys may have no text. -/
def ofFields (fields : List (Option String × Json)) : Json :=
  match fields.mapM fun e => e.1.map fun key => (key, e.2) with
  | some fields => .obj fields
  | none => .unreadable

mutual

/-- A value and what follows it, in at most `fuel` nested steps. -/
def readValue : Nat → List Char → Option (Json × List Char)
  | 0, _ => none
  | fuel + 1, cs =>
    match skipSpace cs with
    | '"' :: rest => (readPieces rest).map fun r => (ofPieces r.1, r.2)
    | '[' :: rest =>
      match skipSpace rest with
      | ']' :: rest => some (.arr [], rest)
      | rest => (readItems fuel rest).map fun r => (.arr r.1, r.2)
    | '\x7b' :: rest =>
      match skipSpace rest with
      | '\x7d' :: rest => some (.obj [], rest)
      | rest => (readFields fuel rest).map fun r => (ofFields r.1, r.2)
    | 'n' :: 'u' :: 'l' :: 'l' :: rest => some (.null, rest)
    | 't' :: 'r' :: 'u' :: 'e' :: rest => some (.bool true, rest)
    | 'f' :: 'a' :: 'l' :: 's' :: 'e' :: rest => some (.bool false, rest)
    | rest => readNumber rest

/-- The items of an array up to its closing bracket. -/
def readItems : Nat → List Char → Option (List Json × List Char)
  | 0, _ => none
  | fuel + 1, cs =>
    match readValue fuel cs with
    | none => none
    | some (v, rest) =>
      match skipSpace rest with
      | ',' :: rest => (readItems fuel rest).map fun r => (v :: r.1, r.2)
      | ']' :: rest => some ([v], rest)
      | _ => none

/-- The fields of an object up to its closing brace. -/
def readFields : Nat → List Char → Option (List (Option String × Json) × List Char)
  | 0, _ => none
  | fuel + 1, cs =>
    match skipSpace cs with
    | '"' :: rest =>
      match readPieces rest with
      | none => none
      | some (pieces, rest) =>
        let key := (joinPieces pieces).map String.ofList
        match skipSpace rest with
        | ':' :: rest =>
          match readValue fuel rest with
          | none => none
          | some (v, rest) =>
            match skipSpace rest with
            | ',' :: rest => (readFields fuel rest).map fun r => ((key, v) :: r.1, r.2)
            | '\x7d' :: rest => some ([(key, v)], rest)
            | _ => none
        | _ => none
    | _ => none

end

/-- The one value that a text holds. Every nesting step takes a character, so the fuel suffices. -/
def parse? (text : String) : Option Json :=
  let cs := text.toList
  match readValue (2 * cs.length + 2) cs with
  | some (v, rest) => if (skipSpace rest).isEmpty then some v else none
  | none => none

end Saga.Json
