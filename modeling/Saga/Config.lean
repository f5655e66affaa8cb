import Saga.Dispatch
import Saga.Files
import Saga.Text.Utf8
import Saga.Yaml.Reader

/-!
# Configuration

The settings of a program come from three places, each overriding the ones before: their defaults, a
YAML file, if the environment names one, and the environment itself.
-/

namespace Saga

/-- The environment of a program: the variables that are set. -/
abbrev Environment := String → Option String

/-- The settings of a program. -/
structure Config where
  /-- Which log entries to show. -/
  filter : String := "info"
  /-- Whether a dispatch writes back an instance that it does not move. -/
  persistUnchanged : Bool := true
  /-- Whether commits compare versions. -/
  optimisticConcurrency : Bool := true
  /-- Where the instances are loaded from and saved to. -/
  snapshotPath : Option String := none
  deriving DecidableEq, Repr

/-- Why the settings could not be loaded. -/
inductive ConfigError where
  | unreadable (path detail : String)
  | malformed (path detail : String)
  deriving DecidableEq, Repr

/-- The wording of a configuration error. -/
def ConfigError.message : ConfigError → String
  | unreadable path detail => s!"failed to read config file '{path}': {detail}"
  | malformed path detail => s!"failed to parse config file '{path}': {detail}"

namespace Config

/-- The settings for dispatches. -/
def dispatchOptions (c : Config) : DispatchOptions := { persistUnchanged := c.persistUnchanged }

/-- The settings for the store. -/
def storeOptions (c : Config) : StoreOptions :=
  { optimisticConcurrency := c.optimisticConcurrency }

/-! ## The file -/

/-- The value of a field, or `default` without one. -/
def orDefault {α : Type} (fields : List (String × Yaml.Node)) (name : String) (default : α)
    (read : Yaml.Node → Option α) : Option α := do
  match ← Yaml.field? fields name with
  | none => some default
  | some node => read node

/-- Reads the settings that a document gives; unknown fields are passed over, and so are parts that
are missing. -/
def ofDocument? (document : Yaml.Document) : Option Config := do
  let fields ← document.fields? (document.resolve document.root)
  let part (name : String) := orDefault fields name [] document.fields?
  let logging ← part "logging"
  let dispatch ← part "dispatch"
  let storage ← part "storage"
  let d : Config := {}
  return {
    filter := ← orDefault logging "filter" d.filter Yaml.Node.text?
    persistUnchanged :=
      ← orDefault dispatch "persist_unchanged_state" d.persistUnchanged Yaml.Node.bool?
    optimisticConcurrency :=
      ← orDefault storage "optimistic_concurrency" d.optimisticConcurrency Yaml.Node.bool?
    snapshotPath :=
      ← orDefault storage "snapshot_path" d.snapshotPath Yaml.Node.optionalText?
  }

/-- Reads the settings from a file. -/
def ofFile (files : Files) (path : String) : Except ConfigError Config :=
  match files.read path with
  | .error fault => .error (.unreadable path fault.message)
  | .ok bytes =>
    match Utf8.decode? bytes with
    | none => .error (.unreadable path "the file holds no text")
    | some text =>
      match (Yaml.Document.ofText? text).bind ofDocument? with
      | none => .error (.malformed path "the file holds no settings")
      | some config => .ok config

/-! ## The environment -/

/-- A flag is on for `1` and for `true` in any case, and off for any other value. -/
def flag (value : String) : Bool := value = "1" || value.toLower = "true"

/-- The settings as the environment overrides them. -/
def override (c : Config) (env : Environment) : Config where
  filter :=
    match env "CORRFLOW_LOG" with
    | some filter => if filter.isEmpty then c.filter else filter
    | none => c.filter
  persistUnchanged := ((env "CORRFLOW_PERSIST_UNCHANGED").map flag).getD c.persistUnchanged
  optimisticConcurrency :=
    ((env "CORRFLOW_OPTIMISTIC_CONCURRENCY").map flag).getD c.optimisticConcurrency
  snapshotPath :=
    match env "CORRFLOW_SNAPSHOT_PATH" with
    | some path => if path.isEmpty then none else some path
    | none => c.snapshotPath

/-- Loads the settings. -/
def load (env : Environment) (files : Files) : Except ConfigError Config := do
  let config ← match env "CORRFLOW_CONFIG" with
    | some path => ofFile files path
    | none => pure {}
  return config.override env

end Config

end Saga
