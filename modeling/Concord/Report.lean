import Concord.Unit
/-!
Reports of runs: the results in plan order, their counts, a one-line summary and a block of lines
for each failure.
-/

namespace Concord

/-- The results of one run, in plan order. -/
structure Report where
  runId : String
  results : List Result
  deriving DecidableEq

namespace Report

def count (r : Report) (o : Outcome) : Nat := r.results.countP (·.outcome == o)

/-- The number of units of each outcome; every outcome is listed. -/
def counts (r : Report) : List (Outcome × Nat) := Outcome.all.map fun o => (o, r.count o)

def failures (r : Report) : List Result := r.results.filter (·.isFailure)

def withOutcome (r : Report) (o : Outcome) : List Result := r.results.filter (·.outcome == o)

def ok (r : Report) : Bool := r.failures.isEmpty

def summaryParts (r : Report) : List String :=
  r.counts.filterMap fun (o, n) => if n = 0 then none else some s!"{n} {o.text}"

def summary (r : Report) : String :=
  if r.summaryParts.isEmpty then "no test units" else String.intercalate ", " r.summaryParts

end Report

namespace Result

/-- The lines of a text under a heading, each with a margin. -/
def headed (heading margin text : String) : List String :=
  heading :: (Text.lines text).map (margin ++ ·)

def blockLines (r : Result) : List String :=
  [s!"{r.outcome.heading} {r.key.text}",
   s!"  backend : {r.key.backend}",
   s!"  contract: {r.key.contract}",
   s!"  scenario: {r.key.scenario}"]
  ++ (match r.reason with
      | some why => [s!"  reason  : {why.text}"]
      | none => [])
  ++ headed "  expected:" "    | " r.expected
  ++ (match r.actual with
      | some a => headed "  actual:" "    | " a
      | none => [])
  ++ (if r.detail.isEmpty then [] else headed "  detail:" "    " r.detail)

/-- Everything needed to find a failure again, as one block of text. -/
def block (r : Result) : String := String.intercalate "\n" r.blockLines

end Result

end Concord
