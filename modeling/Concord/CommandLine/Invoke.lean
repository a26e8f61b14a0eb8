import Concord.CommandLine.Perform
import Concord.Log.Console
import Concord.Log.Recorder
/-!
One invocation of the program: the options in front of the command are read and the command is
looked up, logging is set up, then the command's own options are read and it is performed. Its
records go to the console and to the flight recorder.
-/

namespace Concord.CommandLine

variable {K : Kit}

def version : String := "0.1.0"

structure Invocation where
  status : Nat
  output : String := ""
  errors : String := ""
  /-- A fault that nothing handled. -/
  fault : Option Fault := none
  /-- The lines on the console, each with its severity. -/
  console : List (Severity × String) := []
  files : List (String × String) := []

def Invocation.ofMistake (m : Mistake) : Invocation := { status := 2, errors := m.report }

def Globals.setup (g : Globals) : Log.Setup where
  version := version
  console := g.severity
  path := some g.path
  capacity := if g.recorder then some g.capacity else none
  forceFlush := g.forceFlush
  levels := g.levels

def Globals.consoleLines (g : Globals) (a : Log.Ambient) (rs : List Record) :
    List (Severity × String) :=
  let c := Log.Console.make g.severity g.debug true
  rs.filterMap fun r => (c.line? a r).map fun line => (r.severity, line)

/-- The files that records leave behind when logging ends. -/
def Globals.files (g : Globals) (a : Log.Ambient) (rs : List Record) : List (String × String) :=
  if g.recorder then
    let start : Log.Recorder := { capacity := g.capacity, writesOnClose := g.forceFlush }
    let r := (start.recordAll rs).endLogging true
    ((r.file? a).map fun text => (g.path, text)).toList
  else []

/-- How a command's ending shows. An interrupt aborts the program, and so does the end of the input; a
request to exit leaves its text. -/
def close (p : Performed) : Invocation :=
  match p.ending with
  | .status n => { status := n, output := p.output, errors := p.errors }
  | .mistake m => { status := 2, output := p.output, errors := p.errors ++ m.report }
  | .fault (.breakdown ⟨_, .interrupt⟩ _) | .fault (.breakdown ⟨_, .ended⟩ _) =>
      { status := 1, output := p.output, errors := p.errors ++ "\nAborted!\n" }
  | .fault (.breakdown ⟨_, .exit⟩ text) =>
      { status := 1, output := p.output ++ text ++ "\n", errors := p.errors }
  | .fault f => { status := 1, output := p.output, errors := p.errors, fault := some f }

def underway (w : Surroundings K) (g : Globals) (c : Command) (words : List String) : Invocation :=
  let p : Performed :=
    match (scan c.options true words).bind readRequest with
    | .error m => { ending := .mistake m }
    | .ok r => perform w c r
  let written := (g.setup.records w.ambient ++ p.records).filter g.levels.lets
  { close p with
    output := withoutControls (close p).output
    console := g.consoleLines w.ambient written
    files := g.files w.ambient written }

def invoke (w : Surroundings K) (words : List String) : Invocation :=
  match scan programOptions false words with
  | .error m => .ofMistake m
  | .ok s =>
      if s.has "--version" then { status := 0, output := s!"recipe-parity, version {version}\n" }
      else
        match readGlobals w.vars w.path s with
        | .error m => .ofMistake m
        | .ok g =>
            match s.words with
            | [] => .ofMistake .missingCommand
            | name :: rest =>
                match Command.named? name with
                | none => .ofMistake (.noSuchCommand name)
                | some c => underway w g c rest

end Concord.CommandLine
