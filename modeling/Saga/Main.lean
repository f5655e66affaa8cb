import Saga.Program
import Std.Time.DateTime.Timestamp

/-!
# The command line

Hands the environment, the files and the time to `Program.run`, prints the log that it gives and
writes the files that it changed.
-/

namespace Saga.Program

/-- The variables that the program looks at. -/
def variableNames : List String :=
  ["CORRFLOW_CONFIG", "CORRFLOW_LOG", "CORRFLOW_PERSIST_UNCHANGED",
    "CORRFLOW_OPTIMISTIC_CONCURRENCY", "CORRFLOW_SNAPSHOT_PATH", "RUST_LOG"]

/-- The environment of the process. -/
def readEnvironment : IO Environment := do
  let values ← variableNames.mapM fun name => do return (name, ← IO.getEnv name)
  return fun name => (values.find? fun e => e.1 = name).bind Prod.snd

/-- The text of a path from the root. -/
def rootedText (names : List String) : String := "/" ++ "/".intercalate names

/-- An empty tree of files with the working directory of the process. -/
def emptyFiles : IO Files := do
  let names := (Path.pieces (← IO.currentDir).toString).filter fun n => n ≠ ""
  let files : Files := { workingDirectory := names }
  return (List.range names.length).foldl (fun files n => files.put (names.take (n + 1)) .directory)
    files

/-- What the disk holds at a place. Anything unreadable counts as a directory. -/
def readPlace (place : List String) : IO (Option FileNode) := do
  try
    let bytes ← IO.FS.readBinFile (rootedText place)
    return some (.file bytes.toList)
  catch
    | .noFileOrDirectory .. => return none
    | _ => return some .directory

/-- The files with what the disk holds at the places that a path leads through. -/
def readPath (files : Files) (path : String) : IO Files := do
  let .ok p := Path.ofText path | return files
  (List.range p.names.length).foldlM (fun files n => do
    let .ok place := files.placeFor { p with names := p.names.take (n + 1) } | return files
    match ← readPlace place with
    | some node => return files.put place node
    | none => return files) files

/-- Writes to the disk what was not there before. -/
def writeChanges (before after : Files) : IO Unit :=
  after.nodes.entries.forM fun (place, node) => do
    if before.node? place != some node then
      match node with
      | .directory => IO.FS.createDirAll (rootedText place)
      | .file bytes => IO.FS.writeBinFile (rootedText place) (ByteArray.mk bytes.toArray)

/-- The paths that the settings name. -/
def snapshotPaths (env : Environment) (files : Files) : List String :=
  match Config.load env files with
  | .ok config => config.snapshotPath.toList.flatMap fun path => [path, Snapshot.sidecarPath path]
  | .error _ => []

end Saga.Program

open Saga Saga.Program in
/-- Runs the program. -/
def main : IO UInt32 := do
  let env ← readEnvironment
  let configured ← (env "CORRFLOW_CONFIG").toList.foldlM readPath (← emptyFiles)
  let paths := snapshotPaths env configured
  let files ← paths.foldlM readPath configured
  let now ← Std.Time.Timestamp.now
  let ending := Program.run env files (Int64.ofInt now.toMillisecondsSinceUnixEpoch.val)
  for entry in ending.log do
    IO.println entry.line
  writeChanges files ending.files
  if let some failure := ending.failure then
    IO.eprintln ("Error: " ++ failure)
  return ending.exitCode.toUInt32
