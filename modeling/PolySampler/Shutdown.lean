/-!
The flag by which everything that runs is asked to stop. Once raised it stays
raised.
-/

namespace PolySampler

structure Shutdown where
  requested : Bool := false
  deriving DecidableEq, Repr, Inhabited

namespace Shutdown

/-- Asks everything to stop. -/
def request (_ : Shutdown) : Shutdown :=
  { requested := true }

/-- Waits until the flag is raised, looking at it before each step that others
make. Absent if they make no further step and the flag is down. -/
def wait : Shutdown → List (Shutdown → Shutdown) → Option Shutdown
  | s, [] => if s.requested then some s else none
  | s, step :: rest => if s.requested then some s else wait (step s) rest

end Shutdown

end PolySampler
