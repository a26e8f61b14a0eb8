import Concord.CommandLine.Options
import Concord.Notice
import Concord.World
/-!
The two commands. Both load a catalog; one lists its test units with the gate's decisions and never
constructs a backend, the other runs them and reports the failures. Plans and reports go to the
output stream, notices to the error stream.
-/

namespace Concord.CommandLine

variable {K : Kit}

inductive Ending
  | status (code : Nat)
  | mistake (m : Mistake)
  | fault (f : Fault)
  deriving DecidableEq

structure Performed where
  output : String := ""
  errors : String := ""
  records : List Record := []
  ending : Ending := .status 0

def failureStatus : Nat := 1

/-- The status for a catalog that cannot be loaded or composed. -/
def catalogStatus : Nat := 2

structure Surroundings (K : Kit) extends World K where
  stream : Stream
  ambient : Log.Ambient
  /-- Where the recorder writes unless an option or a variable says otherwise. -/
  path : String
  /-- How many units the workers of a run have begun when it comes to wait for them. -/
  headStart : Nat → Nat := fun _ => 1

def Surroundings.notice (w : Surroundings K) (n : Notice) (text : String) : String :=
  match w.stream.notice n text with
  | .ok line => line
  | .error _ => ""

/-- Ends a command because of a fault: a defect of the catalog is told to the user. -/
def failed (w : Surroundings K) (h : Harness K) (f : Fault) (output : String) : Performed :=
  if f.isCatalogDefect then
    { output
      errors := w.notice .error f.message
      records := h.session.log.toList
      ending := .status catalogStatus }
  else { output, records := h.session.log.toList, ending := .fault f }

/-- The environment of the settings, changed by the options. -/
def environmentFor (w : Surroundings K) (r : Request) : Environment K.Shared :=
  w.environment.override
    { includeDebugOnly := r.includeDebugOnly, resources := .ofList r.resources }

/-- The catalog that was named, or else that of the settings. -/
def catalogFor (w : Surroundings K) (r : Request) : Except Mistake String :=
  match r.catalog.filter (!·.isEmpty) with
  | some name => .ok name
  | none =>
      match Settings.catalog w.vars with
      | .ok name => .ok name
      | .error _ => .error .missingCatalog

def settingMistake : Fault → Ending
  | .invalidSetting name value reason cause =>
      .mistake (.invalidValue name (Fault.invalidSetting name value reason cause).message)
  | f => .fault f

/-- A harness with its catalog loaded, or how the command ends without one. -/
def prepare (w : Surroundings K) (c : Command) (r : Request) : Except Performed (Harness K) :=
  match w.harness (environmentFor w r) r.replays with
  | .error f => .error { ending := settingMistake f }
  | .ok h =>
      match catalogFor w r with
      | .error m => .error { ending := .mistake m }
      | .ok name =>
          match { h with headStart := w.headStart }.load w.modules name with
          | (some f, h) => .error (failed w h f "")
          | (none, h) =>
              let plan : Log.Plan K.Shared :=
                { catalog := name
                  environment := h.environment
                  replays := h.replays
                  workers := match c with | .run => some r.workers | .plan => none
                  deadline := r.deadline }
              .ok (h.write plan.records)

/-! ### Listing -/

def planLine (key : Key) (runs : Bool) : String :=
  if runs then s!"RUN   {key.text}\n" else s!"SKIP  {key.text}  (GateRejected)\n"

def planLines {ρ : Type} (p : Planned ρ) (runs : Bool) : String :=
  String.join (p.units.map fun u => planLine u.key runs)

/-- What was listed before a probe interrupted the listing, if one did. -/
structure Listing (K : Kit) where
  text : String
  total : Nat
  skipped : Nat
  interrupt : Option Fault
  harness : Harness K

def list (h : Harness K) : List (Planned K.Recipe) → Listing K
  | [] => ⟨"", 0, 0, none, h⟩
  | p :: ps =>
      match h.admits p.binding with
      | (.error f, h) => ⟨"", 0, 0, some f, h⟩
      | (.ok runs, h) =>
          let rest := list h ps
          { rest with
            text := planLines p runs ++ rest.text
            total := p.units.length + rest.total
            skipped := (if runs then 0 else p.units.length) + rest.skipped }

def performPlan (w : Surroundings K) (h : Harness K) : Performed :=
  match h.plan with
  | (.error f, h) => failed w h f ""
  | (.ok planned, h) =>
      let l := list h planned
      match l.interrupt with
      | some f => failed w l.harness f l.text
      | none =>
          { output := l.text ++
              s!"{l.total} unit(s), {l.total - l.skipped} to run, {l.skipped} gated out\n"
            records := l.harness.session.log.toList }

/-! ### Running -/

/-- The blocks of the failures, each followed by an empty line. -/
def failureText (r : Report) : String := String.join (r.failures.map fun x => x.block ++ "\n\n")

/-- The notices after a run: how many units were skipped, and the summary. -/
def runNotices (w : Surroundings K) (r : Report) : String :=
  let skipped := r.count .skipped
  let summary := s!"run {r.runId}: {r.summary}"
  (if skipped = 0 then ""
   else w.notice .warning s!"{skipped} unit(s) skipped by the execution gate") ++
    w.notice (if r.ok then .success else .error) summary

def performRun (w : Surroundings K) (h : Harness K) (r : Request) : Performed :=
  match h.run r.workers r.deadline with
  | (.error f, h) => failed w h f ""
  | (.ok report, h) =>
      { output := failureText report
        errors := runNotices w report
        records := h.session.log.toList
        ending := .status (if report.ok then 0 else failureStatus) }

def perform (w : Surroundings K) (c : Command) (r : Request) : Performed :=
  match prepare w c r with
  | .error p => p
  | .ok h =>
      match c with
      | .plan => performPlan w h
      | .run => performRun w h r

end Concord.CommandLine
