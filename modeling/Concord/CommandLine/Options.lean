import Concord.CommandLine.Scan
import Concord.Log.Announce
import Concord.Log.Levels
import Concord.Settings
import Concord.Text.Path
/-!
The options of the program and of its commands: which there are, and what their values mean.
-/

namespace Concord.CommandLine

def programOptions : List Known :=
  [{ names := ["--color", "--ansi"] }, { names := ["--no-color", "--no-ansi"] },
   { names := ["--time"] }, { names := ["--no-time"] },
   { names := ["--version"] }, { names := ["--help", "-h"] },
   { names := ["--verbose", "-v"] }, { names := ["--quiet", "-q"] },
   { names := ["--debug"] }, { names := ["--no-debug"] },
   { names := ["--log-path"], takesValue := true },
   { names := ["--flight-recorder-capacity"], takesValue := true },
   { names := ["--flight-recorder"] }, { names := ["--no-flight-recorder"] },
   { names := ["--force-flush"] }, { names := ["--no-force-flush"] },
   { names := ["-L", "--logger-level"], takesValue := true }]

def sharedOptions : List Known :=
  [{ names := ["--include-debug-only"] }, { names := ["--no-include-debug-only"] },
   { names := ["--resource"], takesValue := true }, { names := ["--help", "-h"] }]

def runOptions : List Known :=
  [{ names := ["--replays"], takesValue := true },
   { names := ["--workers"], takesValue := true },
   { names := ["--timeout"], takesValue := true }]

inductive Command
  | plan
  | run
  deriving DecidableEq, Repr

def Command.named? (name : String) : Option Command :=
  if name = "plan" then some .plan else if name = "run" then some .run else none

def Command.options : Command → List Known
  | .plan => sharedOptions
  | .run => sharedOptions ++ runOptions

/-! ### Values -/

def readWhole (text : String) : Option Int := Text.integer? (Text.stripChars text.toList)

def readCount (name text : String) : Except Mistake Int :=
  match readWhole text with
  | none => .error (.invalidValue (optionHint [name])
      s!"{Text.quoted text} is not a valid integer range.")
  | some n =>
      if n < 1 then
        .error (.invalidValue (optionHint [name]) s!"{n} is not in the range x>=1.")
      else .ok n

def readDeadline (name text : String) : Except Mistake Text.Seconds :=
  match Text.Double.ofText? text with
  | none => .error (.invalidValue (optionHint [name])
      s!"{Text.quoted text} is not a valid float range.")
  | some x =>
      if x.isPositive || x == .undefined then .ok (.real x)
      else .error (.invalidValue (optionHint [name]) s!"{x.text} is not in the range x>0.")

def mistake? {α : Type} : Except Mistake α → Option Mistake
  | .ok _ => none
  | .error m => some m

def readGiven {α : Type} (read : String → Except Mistake α) :
    Option String → Except Mistake (Option α)
  | none => .ok none
  | some t => (read t).map some

/-! ### Options of the program -/

structure Globals where
  verbosity : Nat := 0
  quiet : Nat := 0
  debug : Bool := false
  path : String
  capacity : Int := 2000
  recorder : Bool := true
  forceFlush : Bool := false
  levels : Log.Levels

def pathVariable : String := "RECIPE_PARITY_LOG_PATH"
def capacityVariable : String := "RECIPE_PARITY_FLIGHT_RECORDER_CAPACITY"
def levelsVariable : String := "RECIPE_PARITY_LOGGER_LEVELS"

def setVariable (vars : Variables) (name : String) : Option String :=
  (vars.lookup name).filter (!·.isEmpty)

def readCapacity (text : String) : Except Mistake Int :=
  match readWhole text with
  | some n => .ok n
  | none => .error (.invalidValue (optionHint ["--flight-recorder-capacity"])
      s!"{Text.quoted text} is not a valid integer.")

def readLevels (values : List String) : Except Mistake Log.Levels :=
  match Log.readLevels values with
  | .ok l => .ok l
  | .error f => .error (.invalidValue (optionHint ["-L", "--logger-level"]) f.message)

/-- The options of the program. What is not given is taken from the variables. -/
def readGlobals (vars : Variables) (defaultPath : String) (s : Scanned) : Except Mistake Globals :=
  let capacity := readGiven readCapacity
    ((s.value? "--flight-recorder-capacity").or (setVariable vars capacityVariable))
  let values := s.values "-L"
  let levels := readLevels
    (if values.isEmpty then ((setVariable vars levelsVariable).map Text.words).getD [] else values)
  match s.firstMistake? [("--flight-recorder-capacity", mistake? capacity), ("-L", mistake? levels)],
      capacity, levels with
  | some m, _, _ => .error m
  | none, .error m, _ => .error m
  | none, _, .error m => .error m
  | none, .ok c, .ok l =>
      .ok { verbosity := s.count "--verbose"
            quiet := s.count "--quiet"
            debug := (s.switch? "--debug" "--no-debug").getD false
            path := Text.shortPath
              (((s.value? "--log-path").or (setVariable vars pathVariable)).getD defaultPath)
            capacity := c.getD 2000
            recorder := (s.switch? "--flight-recorder" "--no-flight-recorder").getD true
            forceFlush := (s.switch? "--force-flush" "--no-force-flush").getD false
            levels := l }

/-- The least severity on the console: a warning, moved a step by each repetition of an option and
kept between the lowest and the highest. -/
def Globals.severity (g : Globals) : Severity :=
  let asked : Int := 30 - 10 * g.verbosity + 10 * g.quiet
  max Severity.debug (min Severity.critical asked)

/-! ### Options of the commands -/

structure Request where
  catalog : Option String := none
  includeDebugOnly : Option Bool := none
  resources : List String := []
  replays : Option Int := none
  workers : Int := 1
  deadline : Option Text.Seconds := none

/-- The options of a command. Values are checked before the number of words. -/
def readRequest (s : Scanned) : Except Mistake Request :=
  let replays := readGiven (readCount "--replays") (s.value? "--replays")
  let workers := readGiven (readCount "--workers") (s.value? "--workers")
  let deadline := readGiven (readDeadline "--timeout") (s.value? "--timeout")
  match s.firstMistake? [("--replays", mistake? replays), ("--workers", mistake? workers),
      ("--timeout", mistake? deadline)], replays, workers, deadline with
  | none, .ok r, .ok w, .ok t =>
      if s.words.length > 1 then .error (.extraArguments (s.words.drop 1))
      else
        .ok { catalog := s.words.head?
              includeDebugOnly := s.switch? "--include-debug-only" "--no-include-debug-only"
              resources := s.values "--resource"
              replays := r
              workers := w.getD 1
              deadline := t }
  | some m, _, _, _ => .error m
  | none, .error m, _, _ => .error m
  | none, _, .error m, _ => .error m
  | none, _, _, .error m => .error m

end Concord.CommandLine
