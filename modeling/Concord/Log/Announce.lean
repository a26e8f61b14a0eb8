import Concord.Environment
import Concord.Log.Ambient
import Concord.Text.Double
/-!
What is logged when the program starts and before a catalog is planned or run, so that the records
of a failed run tell how it was set up.
-/

namespace Concord.Log

/-- How logging is set up. Without a capacity there is no recorder. -/
structure Setup where
  version : String
  console : Severity
  path : Option String
  capacity : Option Int
  forceFlush : Bool
  levels : List (String × Severity)

namespace Setup

def recorderText (s : Setup) : String :=
  match s.capacity with
  | none => "OFF"
  | some _ => "ON (" ++ s.path.getD "None" ++ ")"

def records (s : Setup) (a : Ambient) : List Record :=
  let say (severity : Severity) (text : String) : Record := Source.commandLine.record severity text
  [say .info s!"RECIPE-PARITY {s.version}: console={s.console.name}, flight-recorder={s.recorderText}",
   say .debug a.host]
  ++ (match s.capacity with
      | none => []
      | some n => [say .debug (s!"Flight recorder keeps {n} record(s), force flush " ++
          if s.forceFlush then "on" else "off")])
  ++ (sortedEntries s.levels).map fun l => say .debug s!"Logger {l.1} capped at {l.2.name}"

end Setup

structure Plan (σ : Type) where
  catalog : String
  environment : Environment σ
  replays : Int
  workers : Option Int
  deadline : Option Text.Seconds

namespace Plan

variable {σ : Type}

/-- The records about a plan. Probes are listed by name and not asked. -/
def records (p : Plan σ) : List Record :=
  let workers := (p.workers.map toString).getD "-"
  let deadline := (p.deadline.map fun t => t.text ++ "s").getD "none"
  let optIn := if p.environment.includeDebugOnly then "True" else "False"
  let resources := Catalog.namesOr "<none>" p.environment.resources.names
  let probes := Catalog.namesOr "<none>" (entryNames p.environment.probes)
  [Source.commands.record .info
     s!"Catalog {p.catalog}: replays={p.replays}, workers={workers}, timeout={deadline}",
   Source.commands.record .info
     s!"Gate: include-debug-only={optIn}, resources={resources}, probes={probes}"]

end Plan

end Concord.Log
