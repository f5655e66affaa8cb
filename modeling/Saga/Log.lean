/-!
# Log entries

What the engine reports about its own work, as values.
-/

namespace Saga

/-- Severities, the gravest first. -/
inductive Severity where
  | error | warn | info | debug | trace
  deriving DecidableEq, Repr

namespace Severity

/-- The name that stands in a log line. -/
def label : Severity → String
  | error => "ERROR"
  | warn => "WARN"
  | info => "INFO"
  | debug => "DEBUG"
  | trace => "TRACE"

/-- The place in the list of severities, the gravest being 1. -/
def rank : Severity → Nat
  | error => 1
  | warn => 2
  | info => 3
  | debug => 4
  | trace => 5

end Severity

/-- The part of the engine that reports. -/
inductive LogSource where
  | program | blueprint | registry | dispatcher | store | snapshot | host | demo
  deriving DecidableEq, Repr

/-- The name that stands in a log line. -/
def LogSource.label : LogSource → String
  | program => "corrflow"
  | blueprint => "corrflow_core::blueprint"
  | registry => "corrflow_core::registry"
  | dispatcher => "corrflow_core::dispatcher"
  | store => "corrflow_storage::store"
  | snapshot => "corrflow_storage::snapshot"
  | host => "corrflow::host"
  | demo => "corrflow::demo"

/-- One line of the log. -/
structure LogEntry where
  severity : Severity
  source : LogSource
  text : String
  deriving DecidableEq, Repr

/-- The line of an entry, without its time stamp. -/
def LogEntry.line (e : LogEntry) : String :=
  s!"{e.severity.label} {e.source.label}: {e.text}"

/-! ## On a terminal -/

/-- Whether a control character could be part of a command to the terminal. -/
def isTerminalControl (c : Char) : Bool :=
  let n := c.toNat
  n == 0x07 || n == 0x08 || n == 0x0c || n == 0x1b || n == 0x7f || (0x80 ≤ n && n ≤ 0x9f)

/-- What a terminal is given for a character: for a control its number. -/
def terminalChar (c : Char) : String :=
  if !isTerminalControl c then c.toString
  else
    let digits := String.ofList (Nat.toDigits 16 c.toNat)
    if 0x7f < c.toNat then "\\u\x7b" ++ digits ++ "\x7d"
    else if c.toNat < 0x10 then "\\x0" ++ digits
    else "\\x" ++ digits

/-- The entry as it is printed, which no text in it can keep the terminal from showing. -/
def LogEntry.printed (e : LogEntry) : LogEntry :=
  { e with text := String.join (e.text.toList.map terminalChar) }

end Saga
