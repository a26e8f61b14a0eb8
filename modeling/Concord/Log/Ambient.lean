import Concord.Record
/-!
What a program cannot know by itself when it writes a record down: the clock, how long a step took,
the trace of a fault, and the host.
-/

namespace Concord.Log

structure Ambient where
  clock : String
  elapsed : String
  trace : String
  host : String

def Ambient.message (a : Ambient) (r : Record) : String := r.text a.elapsed

end Concord.Log
