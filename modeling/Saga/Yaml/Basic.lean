/-!
# YAML documents

A document is a tree of scalars, sequences and mappings. A scalar keeps the style in which it was
written and its tag, because a truth value or a null is one only in some styles. An alias stays in
the tree as the number of the node that it stands for, since a node may well stand within itself.
-/

namespace Saga.Yaml

/-- How a scalar was written. -/
inductive Style where
  | plain | quoted | literal | folded
  deriving DecidableEq, Repr

/-- The bytes of a tag. -/
abbrev Tag := List UInt8

namespace Tag

/-- The tag whose characters are all ASCII. -/
def ofText (text : String) : Tag := text.toList.map fun c => UInt8.ofNat c.toNat

/-- What the tags of the core types start with. -/
def core : Tag := ofText "tag:yaml.org,2002:"

/-- The tag of null. -/
def null : Tag := core ++ ofText "null"

/-- The tag of the truth values. -/
def bool : Tag := core ++ ofText "bool"

end Tag

/-- A node of a document. -/
inductive Node where
  | scalar (text : String) (style : Style) (tag : Option Tag)
  | sequence (items : List Node)
  | mapping (entries : List (Node × Node))
  /-- The node with that number among the anchored ones. -/
  | reference (number : Nat)
  deriving Inhabited, Repr

/-- The scalar that stands where nothing is written. -/
def Node.nothing : Node := .scalar "" .plain none

namespace Node

/-- The text of a scalar of any style. -/
def text? : Node → Option String
  | scalar text _ _ => some text
  | _ => none

/-- The truth value that a word stands for. -/
def wordBool? (word : String) : Option Bool :=
  if word = "true" || word = "True" || word = "TRUE" then some true
  else if word = "false" || word = "False" || word = "FALSE" then some false
  else none

/-- The truth value of a plain scalar, or of a literal one with the tag of truth values. -/
def bool? : Node → Option Bool
  | scalar text .plain _ => wordBool? text
  | scalar text .literal (some tag) => if tag = Tag.bool then wordBool? text else none
  | _ => none

/-- The words for null. -/
def isNullWord (text : String) : Bool :=
  text = "null" || text = "Null" || text = "NULL" || text = "~"

/-- The text of a scalar, or nothing for a null: a plain scalar that is empty or a word for it. One
with the tag of null is a word for it. -/
def optionalText? : Node → Option (Option String)
  | scalar text .plain none =>
    if text.isEmpty || isNullWord text then some none else some (some text)
  | scalar text .plain (some tag) =>
    if tag = Tag.null then (if isNullWord text then some none else none) else some (some text)
  | scalar text _ _ => some (some text)
  | _ => none

/-- The entries of a mapping. A plain scalar without text counts as a mapping without entries. -/
def entries? : Node → Option (List (Node × Node))
  | mapping entries => some entries
  | scalar "" .plain _ => some []
  | _ => none

end Node

/-- A document, with its anchored nodes in the order in which they start. -/
structure Document where
  root : Node := .nothing
  /-- The anchored nodes by their numbers. Several may have the same one. -/
  anchored : List (Nat × Node) := []

namespace Document

/-- The node that a node stands for: an alias stands for the last anchored node of its number. -/
def resolve (d : Document) : Node → Node
  | .reference number =>
    ((d.anchored.reverse.find? fun e => e.1 == number).map Prod.snd).getD .nothing
  | n => n

/-- The entries of a mapping whose keys are all scalars, by the texts of the keys. -/
def fields? (d : Document) (n : Node) : Option (List (String × Node)) := do
  (← n.entries?).mapM fun e => do return (← (d.resolve e.1).text?, d.resolve e.2)

end Document

/-- The value of a field, which may stand once. The outer option fails, the inner one is absence. -/
def field? (fields : List (String × Node)) (name : String) : Option (Option Node) :=
  match fields.filter fun e => e.1 == name with
  | [] => some none
  | [e] => some (some e.2)
  | _ => none

end Saga.Yaml
