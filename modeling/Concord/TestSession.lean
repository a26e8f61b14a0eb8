import Concord.CommandLine.Scan
import Concord.Datum
import Concord.World
/-!
Test sessions: test functions that use the harness through fixtures. A function that asks for a unit
becomes one test for each planned unit; a test that the gate rejects is skipped before any of its
fixtures is made. The session makes one harness, when it is first needed, and constructs each
backend at most once.
-/

namespace Concord.TestSession

variable {K : Kit}

/-- What a test function asks for and does. -/
inductive Kind
  | unitCheck
  | unitParser
  | unitPlain
  | parser
  | checkFirst
  | counts
  deriving DecidableEq, Repr

def Kind.asksForUnit : Kind → Bool
  | .unitCheck | .unitParser | .unitPlain => true
  | _ => false

/-- A mark that ties a test to a resource, named by keyword or by position. -/
structure DebugMark where
  positional : List Datum := []
  keyword : Option Datum := none

structure Function where
  kind : Kind
  /-- The arguments of the mark that names a backend. -/
  backend : Option (List Datum) := none
  debugOnly : Option DebugMark := none

structure Options where
  catalog : Option String := none
  configured : String := ""
  includeDebug : Bool := false
  resources : List String := []

def knownOptions : List CommandLine.Known :=
  [{ names := ["--parity-catalog"], takesValue := true },
   { names := ["--parity-include-debug"] },
   { names := ["--parity-resource"], takesValue := true }]

/-- The options of a session; words that it does not know leave them as they are. -/
def Options.read (configured : String) (words : List String) : Options :=
  match CommandLine.scan knownOptions true words with
  | .error _ => { configured }
  | .ok s =>
      { catalog := s.value? "--parity-catalog"
        configured
        includeDebug := s.has "--parity-include-debug"
        resources := s.values "--parity-resource" }

/-- Why a test, or the whole session, did not go through. -/
inductive Trouble
  | fault (f : Fault)
  | noIdentity (test : String)
  /-- There is neither a unit nor a mark to tell the backend. -/
  | noBackend
  deriving DecidableEq

def fileName : String := "test_it.py"

namespace Trouble

def label : Trouble → String
  | .fault f => f.label
  | .noIdentity _ => "UsageError"
  | .noBackend => "Failed"

def message : Trouble → String
  | .fault f => f.message
  | .noIdentity t => s!"{fileName}::{t}: parity_backend needs an identity"
  | .noBackend =>
      "parity_parser needs a parity_unit parameter or a @pytest.mark.parity_backend(identity) mark"

def isInterrupt : Trouble → Bool
  | .fault (.breakdown ⟨_, .interrupt⟩ _) => true
  | _ => false

end Trouble

inductive Value
  | text (s : String)
  | counts (entries : List (String × Nat))
  deriving DecidableEq

inductive Outcome
  | passed (v : Value)
  | failedSetup (t : Trouble)
  | failedCall (t : Trouble)
  | skipped (reason : String)
  deriving DecidableEq

def Outcome.isFailure : Outcome → Bool
  | .failedSetup _ | .failedCall _ => true
  | _ => false

structure Item (K : Kit) where
  name : String
  function : Function
  unit : Option (TestUnit K.Recipe) := none
  skip : Option String := none

inductive Ending
  | finished
  | interrupted
  | problem (f : Fault)
  | usage (text : String)
  /-- A fault of the session itself. -/
  | internal (f : Fault)
  deriving DecidableEq

/-- The tests in the order in which they ran, and how the session ended. -/
structure Summary where
  tests : List (String × Outcome) := []
  ending : Ending := .finished

def Summary.status (s : Summary) : Nat :=
  match s.ending with
  | .usage _ => 4
  | .internal _ => 3
  | .problem _ | .interrupted => 2
  | .finished =>
      if s.tests.isEmpty then 5 else if s.tests.any (·.2.isFailure) then 1 else 0

/-! ### The harness of a session -/

/-- The environment of the settings, changed by the options. -/
def environment (w : World K) (o : Options) : Environment K.Shared :=
  w.environment.override
    { includeDebugOnly := some (w.environment.includeDebugOnly || o.includeDebug)
      resources := .ofList o.resources }

/-- The catalog: that of the options, of the configuration, or of the settings. None may be set. -/
def catalog? (w : World K) (o : Options) : Option String :=
  ((o.catalog.filter (!·.isEmpty)).or (some o.configured |>.filter (!·.isEmpty))).or
    (Settings.catalog w.vars).toOption

def makeHarness (w : World K) (o : Options) : Except Fault (Harness K) :=
  match w.harness (environment w o) none with
  | .error f => .error f
  | .ok h =>
      match catalog? w o with
      | none => .ok h
      | some name =>
          match h.load w.modules name with
          | (some f, _) => .error f
          | (none, h) => .ok h

/-- A session knows its harness once it was made. -/
structure State (K : Kit) where
  world : World K
  options : Options
  harness? : Option (Harness K) := none

def State.harness (s : State K) : Except Fault (Harness K) :=
  match s.harness? with
  | some h => .ok h
  | none => makeHarness s.world s.options

def State.keep (s : State K) (h : Harness K) : State K := { s with harness? := some h }

/-! ### Collection -/

def gateReason : String := Reason.gate.text

/-- A unit's key as part of a test's name: characters outside the printable ASCII range and the
backslash are written by escapes. -/
def idText (key : String) : String :=
  String.ofList (key.toList.flatMap fun c =>
    if c = '\\' then ['\\', '\\']
    else if c = '\n' then ['\\', 'n']
    else if c = '\r' then ['\\', 'r']
    else if c = '\t' then ['\\', 't']
    else if 0x20 ≤ c.toNat && c.toNat < 0x7f then [c]
    else Text.codeEscape c)

def functionName (i : Nat) : String := s!"test_{i}"

/-- The units of planned bindings, each with the gate's decision on it. -/
def decidedUnits {ρ : Type} (entries : List (Planned ρ × Bool)) : List (TestUnit ρ × Bool) :=
  entries.flatMap fun (p, runs) => p.units.map fun u => (u, runs)

def planUnits (h : Harness K) : Except Fault (List (TestUnit K.Recipe × Bool)) × Harness K :=
  match h.plan with
  | (.error f, h) => (.error f, h)
  | (.ok planned, h) =>
      let (r, h) := h.decide planned
      (r.map decidedUnits, h)

/-- The tests of a function that asks for a unit. Without units one skipped test stands for it. -/
def unitItems (name : String) (f : Function) (units : List (TestUnit K.Recipe × Bool)) :
    List (Item K) :=
  if units.isEmpty then
    [⟨s!"{name}[NOTSET]", f, none, some "got empty parameter set for (parity_unit)"⟩]
  else
    units.map fun (u, runs) =>
      ⟨s!"{name}[{idText u.key.text}]", f, some u, if runs then none else some gateReason⟩

def itemsOf (units : List (TestUnit K.Recipe × Bool)) (i : Nat) (f : Function) : List (Item K) :=
  if f.kind.asksForUnit then unitItems (functionName i) f units else [⟨functionName i, f, none, none⟩]

/-- Collects the tests. Planning is done once, and only if a function asks for a unit. -/
def collect (s : State K) (fs : List Function) : Except Fault (List (Item K)) × State K :=
  let itemsFor (units : List (TestUnit K.Recipe × Bool)) :=
    (fs.zipIdx).flatMap fun (f, i) => itemsOf units i f
  if fs.any (·.kind.asksForUnit) then
    match s.harness with
    | .error f => (.error f, s)
    | .ok h =>
        match planUnits h with
        | (.error f, h) => (.error f, s.keep h)
        | (.ok units, h) => (.ok (itemsFor units), s.keep h)
  else (.ok (itemsFor []), s)

/-! ### Marks -/

def markedBackend (item : Item K) : Except Trouble (Option String) :=
  match item.function.backend with
  | none => .ok none
  | some [] => .error (.noIdentity item.name)
  | some (d :: _) => .ok (some d.shown)

/-- The resource that a mark stands for: its keyword, else its argument, else the marked backend. -/
def markedResource (item : Item K) (m : DebugMark) : Except Trouble Datum :=
  match m.keyword.filter (·.isTrue), m.positional with
  | some d, _ => .ok d
  | none, d :: _ => .ok d
  | none, [] => (markedBackend item).map fun b => (b.map Datum.text).getD .null

/-- Whether a marked test may run. Only a text can name a resource; nothing is the empty name. -/
def admitsMark (h : Harness K) (resource : Datum) : Except Fault Bool × Harness K :=
  let e := h.environment
  let ask (name : String) : Except Fault Bool × Harness K :=
    let a := e.admits true name h.session.shared
    (a.answer, h.answered a.environment a.shared a.records)
  match resource with
  | .text name => ask name
  | d => if d.isTrue then (.ok e.includeDebugOnly, h) else ask ""

def stop : Trouble → Ending
  | .noIdentity t => .usage (Trouble.noIdentity t).message
  | .noBackend => .usage Trouble.noBackend.message
  | .fault f => if (Trouble.fault f).isInterrupt then .interrupted else .internal f

def Item.rejected (item : Item K) : Item K := { item with skip := item.skip.or (some gateReason) }

def applyMarks : State K → List (Item K) → Except Ending (List (Item K)) × State K
  | s, [] => (.ok [], s)
  | s, item :: rest =>
      match item.function.debugOnly with
      | none =>
          let (r, s) := applyMarks s rest
          (r.map (item :: ·), s)
      | some m =>
          match markedResource item m, s.harness with
          | .error t, _ => (.error (stop t), s)
          | .ok _, .error f => (.error (stop (.fault f)), s)
          | .ok d, .ok h =>
              match admitsMark h d with
              | (.error f, h) => (.error (stop (.fault f)), s.keep h)
              | (.ok runs, h) =>
                  let (r, s) := applyMarks (s.keep h) rest
                  (r.map ((if runs then item else item.rejected) :: ·), s)

/-! ### Running -/

/-- Nothing else is at work, so a call never waits. -/
def waited : Fault := .breakdown .runtime "nothing to wait for"

def resolveFor (h : Harness K) (identity : String) : Except Fault (Option Nat) × Harness K :=
  let (r, h) := h.resolve identity
  (r.getD (.error waited), h)

def checkUnit (h : Harness K) (u : TestUnit K.Recipe) : Except Fault String × Harness K :=
  let (r, h) := h.check u.key u.scenario
  (r.getD (.error waited), h)

def firstUnit (h : Harness K) : Except Fault (TestUnit K.Recipe) × Harness K :=
  let (r, h) := h.plan
  (r.bind fun planned =>
    match planned with
    | ⟨_, u :: _⟩ :: _ => .ok u
    | _ => .error (.breakdown .index "list index out of range"), h)

def identityOf (item : Item K) : Except Trouble String :=
  match item.unit with
  | some u => .ok u.key.backend
  | none =>
      match markedBackend item with
      | .error t => .error t
      | .ok (some b) => .ok b
      | .ok none => .error .noBackend

def constructionCounts (h : Harness K) : List (String × Nat) :=
  h.catalog.backends.map fun b => (b.identity, h.session.constructions b.identity)

def textOutcome : Except Fault String → Outcome
  | .ok t => .passed (.text t)
  | .error f => .failedCall (.fault f)

def runWith (h : Harness K) (item : Item K) : Outcome × Harness K :=
  let withParser (next : Option Nat → Harness K → Outcome × Harness K) : Outcome × Harness K :=
    match identityOf item with
    | .error t => (.failedSetup t, h)
    | .ok identity =>
        match resolveFor h identity with
        | (.error f, h) => (.failedSetup (.fault f), h)
        | (.ok i, h) => next i h
  match item.function.kind, item.unit with
  | .unitCheck, some u =>
      withParser fun _ h =>
        let (r, h) := checkUnit h u
        (textOutcome r, h)
  | .checkFirst, _ =>
      match firstUnit h with
      | (.error f, h) => (.failedCall (.fault f), h)
      | (.ok u, h) =>
          let (r, h) := checkUnit h u
          (textOutcome r, h)
  | .counts, _ => (.passed (.counts (constructionCounts h)), h)
  | _, _ => withParser fun i h => (.passed (.text (h.session.label i)), h)

/-- Runs one test. A skipped one makes no fixtures. -/
def runItem (s : State K) (item : Item K) : Outcome × State K :=
  match item.skip with
  | some reason => (.skipped reason, s)
  | none =>
      match item.function.kind, item.unit with
      | .unitPlain, some u => (.passed (.text u.text), s)
      | _, _ =>
          match s.harness with
          | .error f => (.failedSetup (.fault f), s)
          | .ok h =>
              let (o, h) := runWith h item
              (o, s.keep h)

def Outcome.isInterrupt : Outcome → Bool
  | .failedSetup t | .failedCall t => t.isInterrupt
  | _ => false

def runItems : State K → List (Item K) → Summary
  | _, [] => {}
  | s, item :: rest =>
      let (o, s) := runItem s item
      if o.isInterrupt then { ending := .interrupted }
      else
        let more := runItems s rest
        { more with tests := (item.name, o) :: more.tests }

def run (w : World K) (o : Options) (fs : List Function) : Summary :=
  let s : State K := { world := w, options := o }
  match collect s fs with
  | (.error f, _) =>
      { ending := if (Trouble.fault f).isInterrupt then .interrupted else .problem f }
  | (.ok items, s) =>
      match applyMarks s items with
      | (.error e, _) => { ending := e }
      | (.ok items, s) => runItems s items

end Concord.TestSession
