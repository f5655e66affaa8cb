import Saga.Yaml.Token

/-!
# Reading YAML documents

`Document.ofText?` reads a text that holds one document at most, from its tokens. An anchor gets the
number of names in use before it, so that one which takes a name again shares its number with the
next new name: an alias stands for whichever anchored node of its number comes last.

The readers recurse on fuel. A call takes a token or opens one more kind of node at the same place,
so a few units for each token are enough.
-/

namespace Saga.Yaml

/-- What the tags with each handle start with. -/
abbrev Handles := List (String × Tag)

namespace Handles

/-- What the handles stand for that no directive explains. -/
def standard : Handles := [("!", Tag.ofText "!"), ("!!", Tag.core)]

/-- The tag that is meant by a written one. -/
def expand? (handles : Handles) (t : WrittenTag) : Option Tag :=
  if t.handle = "" then some t.suffix else (handles.lookup t.handle).map (· ++ t.suffix)

end Handles

/-- The anchors that were read. -/
structure Anchors where
  /-- The numbers of the names in use. -/
  numbers : List (String × Nat) := []
  /-- The anchored nodes by their numbers, in the order in which they start. -/
  nodes : Array (Nat × Node) := #[]

/-- A reader of tokens. -/
abbrev Reading := StateT Anchors Option

namespace Reading

/-- Sets an anchor on a node that starts here. The answer is its place among the anchored nodes. -/
def anchor (name : String) : Reading Nat := do
  let a ← get
  let number := a.numbers.length
  set { a with
    numbers := (name, number) :: a.numbers.filter fun e => e.1 != name
    nodes := a.nodes.push (number, .nothing) }
  return a.nodes.size

/-- Says what an anchored node is. -/
def complete (place : Nat) (n : Node) : Reading Unit :=
  modify fun a => { a with nodes := a.nodes.modify place fun e => (e.1, n) }

/-- The node that an alias names. -/
def named (name : String) : Reading Node := do
  let some number := (← get).numbers.lookup name | failure
  return .reference number

end Reading

/-- What stands in front of a node. -/
structure Properties where
  anchor : Option String := none
  tag : Option WrittenTag := none

namespace Properties

/-- Reads the properties of a node: an anchor and a tag, in any order. -/
def read : List Token → Properties × List Token
  | .anchor name :: .tag t :: rest => (⟨some name, some t⟩, rest)
  | .tag t :: .anchor name :: rest => (⟨some name, some t⟩, rest)
  | .anchor name :: rest => (⟨some name, none⟩, rest)
  | .tag t :: rest => (⟨none, some t⟩, rest)
  | rest => ({}, rest)

/-- Whether nothing stands in front of the node. -/
def isEmpty (p : Properties) : Bool := p.anchor.isNone && p.tag.isNone

end Properties

/-- Where a node stands. -/
structure Site where
  /-- Whether block collections may start here. -/
  block : Bool
  /-- Whether the items of a sequence may start here, in the column of the mapping around it. -/
  level : Bool

/-- A node of a flow collection. -/
def Site.flow : Site := ⟨false, false⟩

/-- A node of a document or a block sequence. -/
def Site.item : Site := ⟨true, false⟩

/-- A key or a value of a block mapping. -/
def Site.entry : Site := ⟨true, true⟩

/-- Whether one of some tokens comes next. -/
def comesNext (ts : List Token) (among : List Token) : Bool := ts.head?.any (· ∈ among)

mutual

/-- Reads a node with its properties. -/
def readNode (handles : Handles) : (fuel : Nat) → (site : Site) → (ts : List Token) →
    Reading (Node × List Token)
  | 0, _, _ => failure
  | _ + 1, _, .reference name :: rest => do return (← Reading.named name, rest)
  | fuel + 1, site, ts => do
    let (p, rest) := Properties.read ts
    let tag ← p.tag.mapM fun t => StateT.lift (handles.expand? t)
    let place ← p.anchor.mapM Reading.anchor
    let (node, rest) ← readContent handles fuel site p tag rest
    if let some place := place then Reading.complete place node
    return (node, rest)

/-- Reads what follows the properties of a node. After some, nothing need follow. -/
def readContent (handles : Handles) : (fuel : Nat) → (site : Site) → (p : Properties) →
    (tag : Option Tag) → (ts : List Token) → Reading (Node × List Token)
  | 0, _, _, _, _ => failure
  | fuel + 1, site, p, tag, ts => do
    match ts with
    | .scalar text style :: rest =>
      return (.scalar text style tag, rest)
    | .openSequence :: rest => readItems handles fuel true [] rest
    | .openMapping :: rest => readEntries handles fuel true [] rest
    | .blockSequence :: rest => if site.block then readDashes handles fuel [] rest else failure
    | .blockMapping :: rest => if site.block then readKeys handles fuel [] rest else failure
    | _ =>
      if site.level && comesNext ts [.dash] then readLevelDashes handles fuel [] ts
      else if p.isEmpty then failure
      else return (.scalar "" .plain tag, ts)

/-- Reads a node, unless one of the tokens comes next that can only follow it. -/
def readUnless (handles : Handles) : (fuel : Nat) → (among : List Token) → (site : Site) →
    (ts : List Token) → Reading (Node × List Token)
  | 0, _, _, _ => failure
  | fuel + 1, among, site, ts =>
    if comesNext ts among then return (.nothing, ts) else readNode handles fuel site ts

/-- Reads the value of an entry, if there is one. -/
def readValue (handles : Handles) : (fuel : Nat) → (among : List Token) → (site : Site) →
    (ts : List Token) → Reading (Node × List Token)
  | 0, _, _, _ => failure
  | fuel + 1, among, site, ts =>
    match ts with
    | .value :: rest => readUnless handles fuel among site rest
    | _ => return (.nothing, ts)

/-- Reads the items of a block sequence. Those before stand backwards in `items`. -/
def readDashes (handles : Handles) : (fuel : Nat) → (items : List Node) → (ts : List Token) →
    Reading (Node × List Token)
  | 0, _, _ => failure
  | fuel + 1, items, ts => do
    match ts with
    | .dash :: rest =>
      let (item, rest) ← readUnless handles fuel [.dash, .blockEnd] .item rest
      readDashes handles fuel (item :: items) rest
    | .blockEnd :: rest => return (.sequence items.reverse, rest)
    | _ => failure

/-- Reads the items of a sequence in the column of the mapping around it. Those before stand
backwards in `items`. -/
def readLevelDashes (handles : Handles) : (fuel : Nat) → (items : List Node) →
    (ts : List Token) → Reading (Node × List Token)
  | 0, _, _ => failure
  | fuel + 1, items, ts => do
    match ts with
    | .dash :: rest =>
      let (item, rest) ← readUnless handles fuel [.dash, .key, .value, .blockEnd] .item rest
      readLevelDashes handles fuel (item :: items) rest
    | _ => return (.sequence items.reverse, ts)

/-- Reads the entries of a block mapping. Those before stand backwards in `entries`. -/
def readKeys (handles : Handles) : (fuel : Nat) → (entries : List (Node × Node)) →
    (ts : List Token) → Reading (Node × List Token)
  | 0, _, _ => failure
  | fuel + 1, entries, ts => do
    let after : List Token := [.key, .value, .blockEnd]
    match ts with
    | .key :: rest =>
      let (key, rest) ← readUnless handles fuel after .entry rest
      let (value, rest) ← readValue handles fuel after .entry rest
      readKeys handles fuel ((key, value) :: entries) rest
    | .blockEnd :: rest => return (.mapping entries.reverse, rest)
    | _ => failure

/-- Reads the items of a flow sequence. Those before stand backwards in `items`. A key makes a
mapping of one entry. If nothing follows the mark of a key, the token behind it is lost. -/
def readItems (handles : Handles) : (fuel : Nat) → (first : Bool) → (items : List Node) →
    (ts : List Token) → Reading (Node × List Token)
  | 0, _, _, _ => failure
  | fuel + 1, first, items, ts => do
    if comesNext ts [.closeSequence] then return (.sequence items.reverse, ts.drop 1)
    if !first && !comesNext ts [.comma] then failure
    match if first then ts else ts.drop 1 with
    | .closeSequence :: rest => return (.sequence items.reverse, rest)
    | .key :: rest =>
      let (key, rest) ←
        if comesNext rest [.value, .comma, .closeSequence] then pure (Node.nothing, rest.drop 1)
        else readNode handles fuel .flow rest
      let (value, rest) ← readValue handles fuel [.comma, .closeSequence] .flow rest
      readItems handles fuel false (.mapping [(key, value)] :: items) rest
    | rest =>
      let (item, rest) ← readNode handles fuel .flow rest
      readItems handles fuel false (item :: items) rest

/-- Reads the entries of a flow mapping. Those before stand backwards in `entries`. -/
def readEntries (handles : Handles) : (fuel : Nat) → (first : Bool) →
    (entries : List (Node × Node)) → (ts : List Token) → Reading (Node × List Token)
  | 0, _, _, _ => failure
  | fuel + 1, first, entries, ts => do
    if comesNext ts [.closeMapping] then return (.mapping entries.reverse, ts.drop 1)
    if !first && !comesNext ts [.comma] then failure
    match if first then ts else ts.drop 1 with
    | .closeMapping :: rest => return (.mapping entries.reverse, rest)
    | .key :: rest =>
      let (key, rest) ← readUnless handles fuel [.value, .comma, .closeMapping] .flow rest
      let (value, rest) ← readValue handles fuel [.comma, .closeMapping] .flow rest
      readEntries handles fuel false ((key, value) :: entries) rest
    | rest =>
      let (key, rest) ← readNode handles fuel .flow rest
      readEntries handles fuel false ((key, .nothing) :: entries) rest

end

/-! ## Documents -/

/-- What the directives in front of a document say. At most one names the version of the format, and
none explains a handle again. -/
def readDirectives : (versioned : Bool) → (handles : Handles) → (ts : List Token) →
    Option (Handles × List Token)
  | versioned, handles, .directive (.version major minor) :: rest =>
    if versioned || major ≠ 1 || (minor ≠ 1 && minor ≠ 2) then none
    else readDirectives true handles rest
  | versioned, handles, .directive (.tag handle stem) :: rest =>
    if (handles.lookup handle).isSome then none
    else readDirectives versioned (handles ++ [(handle, stem)]) rest
  | _, handles, ts => some (handles, ts)

/-- Whether a document that was started has no node. -/
def endsDocument : List Token → Bool
  | [] => true
  | .directive _ :: _ => true
  | ts => comesNext ts [.documentStart, .documentEnd]

namespace Document

/-- The document that some tokens make. Without any, nothing is written in it. -/
def ofTokens? (ts : List Token) : Option Document := do
  let (handles, start) ← readDirectives false [] ts
  let explicit := comesNext start [.documentStart]
  if start.length < ts.length && !explicit then none
  let body := if explicit then start.drop 1 else start
  if body.isEmpty || (explicit && endsDocument body) then finish {} body
  else
    let ((root, rest), anchors) ←
      (readNode (handles ++ Handles.standard) (4 * body.length + 4) .item body).run {}
    finish { root, anchored := anchors.nodes.toList } rest
where
  /-- The document, if nothing but markers of its end follows. -/
  finish (d : Document) (rest : List Token) : Option Document :=
    if rest.all (· == .documentEnd) then some d else none

/-- The document that a text holds. -/
def ofText? (text : String) : Option Document :=
  let cs := text.toList
  if cs.all isPrintable then (tokens? (unifyBreaks cs)).bind ofTokens? else none

end Document

end Saga.Yaml
