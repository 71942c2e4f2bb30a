import SurfaceReuse.Log.Library

set_option autoImplicit false

/-!
The journal of a process. It keeps every event with whether the logging library wrote it, and the
subscribers that the library took from the process.
-/

namespace SurfaceReuse.Log

structure Entry where
  event : Event
  written : Bool
  deriving DecidableEq

structure Journal where
  library : Library := .occupied
  /-- The subscribers that were installed, in the order in which they were. -/
  installed : List Subscriber := []
  /-- The events so far, newest first. -/
  entries : List Entry := []

namespace Journal

def emit (j : Journal) (e : Event) : Journal :=
  { j with entries := ⟨e, j.library.writes j.installed e.target e.level⟩ :: j.entries }

/-- Tries to install a subscriber for the settings, and says in the journal if that went well.
    Nothing is tried if logging is disabled. -/
def install (j : Journal) (l : Logging) : Bool × Journal :=
  let x := j.library.subscriberFor l
  if l.enabled && j.library.accepts j.installed x then
    let j := { j with installed := j.installed ++ [x] }
    (true, j.emit (.initialized l.level))
  else (false, j)

def written (j : Journal) : List Event :=
  (j.entries.filter Entry.written).map Entry.event

end Journal

end SurfaceReuse.Log
