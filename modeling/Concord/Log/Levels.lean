import Concord.Entries
import Concord.Record
import Concord.Text.Blank
import Concord.Text.Dotted
import Concord.Text.Quoted
/-!
Least severities for single sources. They are given as items of the form `name=level`, separated by
commas and blanks; a severity that is set for a name holds for the names below it as well.
-/

namespace Concord

def Severity.named? (name : String) : Option Severity :=
  if name = "CRITICAL" ∨ name = "FATAL" then some critical
  else if name = "ERROR" then some error
  else if name = "WARNING" ∨ name = "WARN" then some warning
  else if name = "INFO" then some info
  else if name = "DEBUG" then some debug
  else if name = "NOTSET" then some unset
  else none

namespace Log

/-- Least severities by the name of a source. -/
abbrev Levels := List (String × Severity)

inductive LevelFault
  | noLevel (item : String)
  | unknownLevel (level : String)
  deriving DecidableEq, Repr

def LevelFault.message : LevelFault → String
  | .noLevel item => s!"Expected NAME=LEVEL, got {Text.quoted item}"
  | .unknownLevel level => s!"Invalid log level: {level}"

/-- Which source is set unless an option says otherwise: cache hits of the resolver are noise. -/
def defaultLevels : Levels := [(Source.resolver.path, .info)]

/-- The upper case of a letter, as far as levels need it: besides those of the alphabet, a dotless i
and a long s are letters of a level's name in lower case. -/
def upper (c : Char) : Char :=
  if c = Char.ofNat 0x131 then 'I' else if c = Char.ofNat 0x17f then 'S' else c.toUpper

/-- Reads one item. The name ends at the first equals sign. -/
def readLevel (item : List Char) : Except LevelFault (String × Severity) :=
  let name := item.takeWhile (· != '=')
  match item.drop name.length with
  | [] => .error (.noLevel (String.ofList item))
  | _ :: level =>
      match Severity.named? (String.ofList (level.map upper)) with
      | none => .error (.unknownLevel (String.ofList level))
      | some s => .ok (String.ofList name, s)

/-- Sets the levels of the items in turn, up to the first that is at fault. -/
def setLevels (levels : Levels) : List (List Char) → Except LevelFault Levels
  | [] => .ok levels
  | item :: rest =>
      match readLevel item with
      | .error f => .error f
      | .ok (name, s) => setLevels (setEntry name s levels) rest

/-- The items of all option values, value by value. -/
def itemsOf (values : List String) : List (List Char) := values.flatMap fun v => Text.itemChars v.toList

/-- The levels that option values set, over those set by default. -/
def readLevels (values : List String) : Except LevelFault Levels :=
  setLevels defaultLevels (itemsOf values)

def isRoot (name : String) : Bool := name.isEmpty || name == "root"

/-- The least severity of all sources for which nothing else is set. -/
def Levels.root (levels : Levels) : Severity :=
  ((levels.filter fun l => isRoot l.1).getLast?.map (·.2)).getD .debug

/-- The severity set for the name, or for the nearest name above it. -/
def Levels.effective (levels : Levels) (source : String) : Severity :=
  let above := (Text.ancestry source).reverse
  ((above.filterMap fun n => levels.lookup n).find? (· != Severity.unset)).getD levels.root

def Levels.lets (levels : Levels) (r : Record) : Bool := levels.effective r.source ≤ r.severity

end Log

end Concord
