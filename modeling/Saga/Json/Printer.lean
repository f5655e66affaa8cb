import Saga.Json.Basic

/-!
# Writing JSON

`compact` writes a value without any blank, `pretty` with one item or field to a line and two blanks
of indentation to a level. Both write the fields of an object in the order in which they stand.
-/

namespace Saga.Json

/-- The lower-case hexadecimal digit of a number below sixteen. -/
def hexDigit (n : Nat) : Char := Nat.digitChar n

/-- What stands for a character inside a string literal. -/
def escape (c : Char) : List Char :=
  if c = '"' then ['\\', '"']
  else if c = '\\' then ['\\', '\\']
  else if c = '\n' then ['\\', 'n']
  else if c = '\r' then ['\\', 'r']
  else if c = '\t' then ['\\', 't']
  else if c.toNat = 8 then ['\\', 'b']
  else if c.toNat = 12 then ['\\', 'f']
  else if c.toNat < 32 then
    ['\\', 'u', '0', '0', hexDigit (c.toNat / 16), hexDigit (c.toNat % 16)]
  else [c]

/-- The string literal for a text. -/
def quote (text : List Char) : List Char := '"' :: text.flatMap escape ++ ['"']

/-- An integer in decimal digits. -/
def intChars : Int → List Char
  | .ofNat n => Nat.toDigits 10 n
  | .negSucc n => '-' :: Nat.toDigits 10 (n + 1)

/-- What is written for a value that has neither items nor fields. -/
def leafChars : Json → List Char
  | null => ['n', 'u', 'l', 'l']
  | bool true => ['t', 'r', 'u', 'e']
  | bool false => ['f', 'a', 'l', 's', 'e']
  | int n => intChars n
  | real literal => literal.toList
  | str text => quote text.toList
  | unreadable => quote [Char.ofNat 0xfffd]
  | arr _ => ['[', ']']
  | obj _ => ['\x7b', '\x7d']

mutual

/-- A value without blanks. -/
def compactChars : Json → List Char
  | arr items => '[' :: compactItems items
  | obj fields => '\x7b' :: compactFields fields
  | v => leafChars v

/-- The items of an array and its closing bracket. -/
def compactItems : List Json → List Char
  | [] => [']']
  | v :: rest => compactChars v ++ compactMoreItems rest

/-- The items after the first, each after a comma. -/
def compactMoreItems : List Json → List Char
  | [] => [']']
  | v :: rest => ',' :: (compactChars v ++ compactMoreItems rest)

/-- The fields of an object and its closing brace. -/
def compactFields : List (String × Json) → List Char
  | [] => ['\x7d']
  | (k, v) :: rest => quote k.toList ++ ':' :: (compactChars v ++ compactMoreFields rest)

/-- The fields after the first, each after a comma. -/
def compactMoreFields : List (String × Json) → List Char
  | [] => ['\x7d']
  | (k, v) :: rest => ',' :: (quote k.toList ++ ':' :: (compactChars v ++ compactMoreFields rest))

end

/-- A value without blanks, as text. -/
def compact (v : Json) : String := String.ofList (compactChars v)

/-- The start of a line at a level of nesting. -/
def newLine (level : Nat) : List Char := '\n' :: List.replicate (2 * level) ' '

mutual

/-- A value with one item or field to a line, inside `level` others. -/
def prettyChars (level : Nat) : Json → List Char
  | arr (v :: rest) =>
    '[' :: (newLine (level + 1) ++ prettyChars (level + 1) v ++ prettyItems level rest)
  | obj ((k, v) :: rest) =>
    '\x7b' :: (newLine (level + 1) ++ quote k.toList ++ ':' :: ' ' :: prettyChars (level + 1) v ++
      prettyFields level rest)
  | v => leafChars v

/-- The further items of an array and its closing bracket. -/
def prettyItems (level : Nat) : List Json → List Char
  | [] => newLine level ++ [']']
  | v :: rest => ',' :: (newLine (level + 1) ++ prettyChars (level + 1) v ++ prettyItems level rest)

/-- The further fields of an object and its closing brace. -/
def prettyFields (level : Nat) : List (String × Json) → List Char
  | [] => newLine level ++ ['\x7d']
  | (k, v) :: rest =>
    ',' :: (newLine (level + 1) ++ quote k.toList ++ ':' :: ' ' :: prettyChars (level + 1) v ++
      prettyFields level rest)

end

/-- A value with one item or field to a line, as text. -/
def pretty (v : Json) : String := String.ofList (prettyChars 0 v)

end Saga.Json
