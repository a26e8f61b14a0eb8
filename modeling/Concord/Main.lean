import Concord.CommandLine.Invoke
import Concord.Samples
import Concord.Ulid
/-!
The program. It knows the sample catalogs, reads its settings from the environment and writes what
an invocation leaves behind: output, notices, console lines and the recorder's file.
-/

namespace Concord.Main

open CommandLine

def variableNames : List String :=
  [Settings.catalogVariable, Settings.debugOnlyVariable, Settings.resourcesVariable,
   Settings.replaysVariable, pathVariable, capacityVariable, levelsVariable]

def readVariables : IO Variables :=
  variableNames.filterMapM fun name => return (← IO.getEnv name).map fun v => (name, v)

/-- What the program finds around it. Runs are named by identifiers that start at the given one. -/
def surroundings (vars : Variables) (start : Ulid) : Surroundings PlainText.kit where
  vars := vars
  modules := Samples.modules
  shared := {}
  runName n := (Ulid.mk (start.value + n)).text
  stream := ⟨"utf-8", false⟩
  ambient := ⟨toString start.millis, "0.000", "(no trace)", s!"Concord {version}"⟩
  path := "latest.log"

def write (r : Invocation) : IO Unit := do
  let output ← IO.getStdout
  let errors ← IO.getStderr
  for (_, line) in r.console do
    errors.putStrLn line
  output.putStr r.output
  errors.putStr r.errors
  if let some f := r.fault then
    errors.putStrLn f.described
  for (name, text) in r.files do
    IO.FS.writeFile name text

end Concord.Main

def main (words : List String) : IO UInt32 := do
  let start := Concord.Ulid.ofTime (← IO.monoMsNow) (← IO.rand 0 (Nat.pow 2 60))
  let around := Concord.Main.surroundings (← Concord.Main.readVariables) start
  let result := Concord.CommandLine.invoke around words
  Concord.Main.write result
  return result.status.toUInt32
