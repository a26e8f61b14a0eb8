/-!
Log records. A record says what happened, where and how grave it is; when it is written out, the
writer adds the clock.
-/

namespace Concord

/-- How grave a record is; a higher number is graver. -/
abbrev Severity := Int

namespace Severity

def unset : Severity := 0
def debug : Severity := 10
def info : Severity := 20
def warning : Severity := 30
def error : Severity := 40
def critical : Severity := 50

/-- The displayed name; a number between the named ones is shown as it is. -/
def name (s : Severity) : String :=
  if s = unset then "NOTSET"
  else if s = debug then "DEBUG"
  else if s = info then "INFO"
  else if s = warning then "WARNING"
  else if s = error then "ERROR"
  else if s = critical then "CRITICAL"
  else s!"Level {s}"

end Severity

/-- One log record. A `timed` record ends with the time its step took, and a `traced` one carries
the trace of the fault that it reports. -/
structure Record where
  severity : Severity
  source : String
  message : String
  timed : Bool := false
  traced : Bool := false
  thread : String := "MainThread"
  deriving DecidableEq, Repr

def Record.text (r : Record) (elapsed : String) : String :=
  if r.timed then s!"{r.message} in {elapsed}s" else r.message

/-- Where the records of the harness come from. -/
inductive Source
  | backends
  | bindings
  | contracts
  | execution
  | gate
  | loading
  | plainText
  | resolver
  | runner
  | commands
  | commandLine
  deriving DecidableEq, Repr

/-- The dotted name of a source; a level set for a name holds for the names below it. -/
def Source.path : Source → String
  | .backends => "recipe_parity.service_layer.backends"
  | .bindings => "recipe_parity.service_layer.bindings"
  | .contracts => "recipe_parity.service_layer.contracts"
  | .execution => "recipe_parity.service_layer.execution"
  | .gate => "recipe_parity.service_layer.gate"
  | .loading => "recipe_parity.bootstrap.bootstrap"
  | .plainText => "recipe_parity.adapters.parsers.plain_text"
  | .resolver => "recipe_parity.service_layer.resolver"
  | .runner => "recipe_parity.service_layer.runner"
  | .commands => "recipe_parity.entrypoints.cli.commands"
  | .commandLine => "recipe_parity.entrypoints.cli.main"

def Source.record (src : Source) (severity : Severity) (message : String) : Record :=
  ⟨severity, src.path, message, false, false, "MainThread"⟩

end Concord
