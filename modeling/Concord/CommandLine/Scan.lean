import Concord.CommandLine.Usage
/-!
Scanning of a command line. A word that starts with a dash is an option, or a cluster of short
options; an option that takes a value has it after an equals sign or in the next word. Two dashes
end the options.
-/

namespace Concord.CommandLine

structure Known where
  names : List String
  takesValue : Bool := false
  deriving DecidableEq, Repr

/-- An option that was given, under the first of its names. -/
structure Given where
  name : String
  value : Option String
  deriving DecidableEq, Repr

/-- What a word of options comes to: those that are complete, and one that waits for its value. -/
structure Word where
  given : List Given := []
  waiting : Option (Known × String) := none

structure Scanned where
  given : List Given := []
  words : List String := []
  deriving DecidableEq, Repr

def Known.first (k : Known) : String := k.names.headD ""

def find? (known : List Known) (name : String) : Option Known :=
  known.find? fun k => k.names.contains name

def isLong (word : String) : Bool := ['-', '-'].isPrefixOf word.toList

/-- A word is an option if something stands after its dash. -/
def isOption (word : String) : Bool := word.toList.head? == some '-' && word.length > 1

/-- Short options that share one dash. The first that takes a value takes what is left of the
word. -/
def cluster (known : List Known) : List Char → Except Mistake Word
  | [] => .ok {}
  | c :: cs =>
      let name := String.ofList ['-', c]
      match find? known name with
      | none => .error (.noSuchOption name)
      | some k =>
          if k.takesValue then
            if cs.isEmpty then .ok { waiting := some (k, name) }
            else .ok { given := [⟨k.first, some (String.ofList cs)⟩] }
          else
            (cluster known cs).map fun w => { w with given := ⟨k.first, none⟩ :: w.given }

def readWord (known : List Known) (word : String) : Except Mistake Word :=
  let name := String.ofList (word.toList.takeWhile (· != '='))
  let value : Option String :=
    match word.toList.drop name.length with
    | [] => none
    | _ :: v => some (String.ofList v)
  match find? known name with
  | some k =>
      if !isLong name then cluster known (word.toList.drop 1)
      else if k.takesValue then
        match value with
        | some v => .ok { given := [⟨k.first, some v⟩] }
        | none => .ok { waiting := some (k, name) }
      else if value.isSome then .error (.takesNoValue name)
      else .ok { given := [⟨k.first, none⟩] }
  | none => if isLong word then .error (.noSuchOption name) else cluster known (word.toList.drop 1)

/-- Scans words, the first of which may be the value of an option that waits for it. Unless options
may stand between other words, the first word that is no option ends them. -/
def scanFrom (known : List Known) (mixed : Bool) :
    (waiting : Option (Known × String)) → List String → Except Mistake Scanned
  | none, [] => .ok {}
  | some (_, name), [] => .error (.needsValue name)
  | some (k, _), v :: rest =>
      (scanFrom known mixed none rest).map fun s => { s with given := ⟨k.first, some v⟩ :: s.given }
  | none, word :: rest =>
      if word = "--" then .ok { words := rest }
      else if isOption word then
        match readWord known word with
        | .error m => .error m
        | .ok w =>
            (scanFrom known mixed w.waiting rest).map fun s => { s with given := w.given ++ s.given }
      else if mixed then
        (scanFrom known mixed none rest).map fun s => { s with words := word :: s.words }
      else .ok { words := word :: rest }

def scan (known : List Known) (mixed : Bool) (words : List String) : Except Mistake Scanned :=
  scanFrom known mixed none words

namespace Scanned

def count (s : Scanned) (name : String) : Nat := s.given.countP (·.name == name)

def has (s : Scanned) (name : String) : Bool := s.given.any (·.name == name)

def values (s : Scanned) (name : String) : List String :=
  (s.given.filter (·.name == name)).filterMap (·.value)

def value? (s : Scanned) (name : String) : Option String := (s.values name).getLast?

/-- A switch with a name for each position; the last one given decides. -/
def switch? (s : Scanned) (on off : String) : Option Bool :=
  ((s.given.filter fun g => g.name == on || g.name == off).getLast?).map (·.name == on)

/-- The first mistake, in the order in which the options were given; options that were not given
come last. -/
def firstMistake? (s : Scanned) (checks : List (String × Option Mistake)) : Option Mistake :=
  let place (name : String) : Nat := s.given.findIdx (·.name == name)
  (checks.mergeSort fun a b => place a.1 ≤ place b.1).findSome? (·.2)

end Scanned

end Concord.CommandLine
