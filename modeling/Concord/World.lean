import Concord.Module
import Concord.Settings
/-!
What surrounds a program that uses the harness: environment variables, the modules that catalogs can
be loaded from, the state of the supplied code, and names for runs.
-/

namespace Concord

structure World (K : Kit) where
  vars : Variables
  modules : List (String × Module K)
  shared : K.Shared
  runName : Nat → String

namespace World

variable {K : Kit}

def environment (w : World K) : Environment K.Shared := Settings.environment w.vars []

/-- An empty harness with the given environment. The settings decide on the number of replays,
unless one is asked for. -/
def harness (w : World K) (e : Environment K.Shared) (replays : Option Int) :
    Except Fault (Harness K) :=
  (Settings.chosenReplays w.vars replays).map fun n => .start w.shared e n w.runName

end World

end Concord
