import Saga.Keyed

/-!
# Files

A tree of files and directories, as far as snapshots and configuration need one. A path is followed
name by name from the root or from the working directory. Every name but the last must be that of a
directory, even if the next one is `..`.
-/

namespace Saga

/-- What stands at a place of the tree. -/
inductive FileNode where
  | file (bytes : List UInt8)
  | directory
  deriving DecidableEq, Repr

/-- A tree of files. The root is always a directory. -/
structure Files where
  /-- The way from the root to the working directory. -/
  workingDirectory : List String := []
  nodes : Keyed (List String) FileNode := Keyed.empty

/-- Why something cannot be done at a path. -/
inductive PathFault where
  | absent
  /-- Something stands there already. -/
  | occupied
  /-- Something of another kind stands on the path, or it cannot be a path. -/
  | refused
  deriving DecidableEq, Repr

/-- The wording of a fault. -/
def PathFault.message : PathFault → String
  | absent => "nothing stands at the path"
  | occupied => "something stands at the path already"
  | refused => "the path leads nowhere"

/-- A path by its names. -/
structure Path where
  absolute : Bool
  /-- The names, the dots among them. -/
  names : List String
  /-- Whether a slash follows the last name, so that only a directory may stand there. -/
  slash : Bool
  deriving DecidableEq, Repr

namespace Path

/-- The longest name, in bytes. -/
def nameLimit : Nat := 255

/-- The longest path, in bytes. -/
def lengthLimit : Nat := 4095

/-- What stands between the slashes of a text. -/
def pieces (text : String) : List String := (text.toList.splitOn '/').map String.ofList

/-- The path that a text names. -/
def ofText (text : String) : Except PathFault Path :=
  if text.isEmpty then .error .absent
  else if lengthLimit < text.utf8ByteSize || text.toList.contains '\x00' then .error .refused
  else .ok {
    absolute := text.toList.head? = some '/'
    names := (pieces text).filter fun n => n ≠ ""
    slash := text.toList.getLast? = some '/' }

/-- Whether a name is one for a directory above or at a place. -/
def isDots (name : String) : Bool := name = "." || name = ".."

/-- The pieces of a path without those at its end that name nothing: empty ones, and single dots
save for one at the very start. -/
def trim (pieces : List String) : List String :=
  match pieces with
  | [] => []
  | first :: rest => first :: (rest.reverse.dropWhile fun n => n = "" || n = ".").reverse

/-- The path to the directory that a path's last name stands in. It is a part of the same text, and
empty for a single name. -/
def parent? (path : String) : Option String :=
  match trim (pieces path) with
  | [] | [""] => none
  | names =>
    match trim names.dropLast with
    | [""] => some "/"
    | above => some ("/".intercalate above)

/-- A path and those above it that have a name, the longest first. -/
def ancestors : (fuel : Nat) → (path : String) → List String
  | 0, _ => []
  | fuel + 1, path =>
    match parent? path with
    | some parent => path :: ancestors fuel parent
    | none => []

end Path

/-- Work on a tree of files. What was done before a fault stays done. -/
abbrev FileRun := EStateM PathFault Files

namespace Files

/-- What stands at a place. -/
def node? (files : Files) (place : List String) : Option FileNode :=
  if place.isEmpty then some .directory else files.nodes.get? place

/-- The tree with something at a place. -/
def put (files : Files) (place : List String) (n : FileNode) : Files :=
  { files with nodes := files.nodes.insert place n }

/-- Fails unless a directory stands at a place. -/
def requireDirectory (files : Files) (place : List String) : Except PathFault Unit :=
  match files.node? place with
  | some .directory => .ok ()
  | some (.file _) => .error .refused
  | none => .error .absent

/-- The place that a name leads to from a directory, whether anything stands there or not. -/
def child (files : Files) (place : List String) (name : String) :
    Except PathFault (List String) := do
  files.requireDirectory place
  if name = "." then return place
  else if name = ".." then return place.dropLast
  else if Path.nameLimit < name.utf8ByteSize then throw .refused
  else return place ++ [name]

/-- The place that names lead to from a place, with something at it. -/
def walk (files : Files) : (place : List String) → (names : List String) →
    Except PathFault (List String)
  | place, [] => .ok place
  | place, name :: rest => do
    let next ← files.child place name
    if (files.node? next).isNone then throw .absent
    walk files next rest

/-- Where a path starts. -/
def start (files : Files) (p : Path) : List String :=
  if p.absolute then [] else files.workingDirectory

/-- The place of what stands at a path. -/
def find (files : Files) (p : Path) : Except PathFault (List String) := do
  let place ← files.walk (files.start p) p.names
  if p.slash then files.requireDirectory place
  return place

/-- Where something new may come at a path: a place in a directory. -/
def placeFor (files : Files) (p : Path) : Except PathFault (List String) := do
  match p.names.getLast? with
  | none => throw .occupied
  | some name =>
    let place ← files.walk (files.start p) p.names.dropLast
    let next ← files.child place name
    if Path.isDots name then throw .occupied else return next

/-- Whether something stands at a path. -/
def contains (files : Files) (path : String) : Bool :=
  ((Path.ofText path).bind files.find).isOk

/-- The bytes of the file at a path. -/
def read (files : Files) (path : String) : Except PathFault (List UInt8) := do
  let place ← files.find (← Path.ofText path)
  match files.node? place with
  | some (.file bytes) => return bytes
  | _ => throw .refused

/-- Puts something at the place that a path has for it. -/
def putAt (place : Files → Except PathFault (List String)) (n : FileNode) : FileRun Unit := do
  let files ← get
  match place files with
  | .ok place => set (files.put place n)
  | .error fault => throw fault

/-- Makes a directory where nothing stands. -/
def makeDirectory (path : String) : FileRun Unit :=
  putAt (fun files => do
    let place ← files.placeFor (← Path.ofText path)
    if (files.node? place).isSome then throw .occupied else return place) .directory

/-- Whether a directory stands at a path. -/
def hasDirectory (files : Files) (path : String) : Bool :=
  match (Path.ofText path).bind files.find with
  | .ok place => files.node? place = some .directory
  | .error _ => false

/-- Makes a directory, unless there is one. -/
def ensureDirectory (path : String) : FileRun Unit := do
  try makeDirectory path
  catch fault =>
    if fault = .occupied && (← get).hasDirectory path then pure () else throw fault

/-- Makes the first of some directories, each of which stands in the next, and before it those that
it needs. -/
def makeAll : (paths : List String) → FileRun Unit
  | [] => pure ()
  | path :: above => do
    try ensureDirectory path
    catch fault =>
      if fault = .absent then do
        makeAll above
        ensureDirectory path
      else throw fault

/-- Makes the directory at a path and those that it needs. -/
def makeDirectories (path : String) : FileRun Unit :=
  makeAll (Path.ancestors (path.length + 1) path)

/-- Makes the directories that something at a path needs, as far as they have a name. -/
def makeParents (path : String) : FileRun Unit :=
  match Path.parent? path with
  | some parent => makeDirectories parent
  | none => pure ()

/-- Writes the file at a path, in a directory that exists. -/
def write (path : String) (bytes : List UInt8) : FileRun Unit :=
  putAt (fun files => do
    let p ← Path.ofText path
    let place ← files.placeFor p
    if p.slash || files.node? place = some .directory then throw .refused else return place)
    (.file bytes)

end Files

end Saga
