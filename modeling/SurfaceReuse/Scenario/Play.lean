import SurfaceReuse.Scenario.Stage

set_option autoImplicit false

/-!
Playing a script: after each step there is a report of what came of it.
-/

namespace SurfaceReuse

/-- What can be seen of the pool in use from outside. -/
inductive View where
  | noPool
  | poisoned
  | pool (p : Pool)

def System.view {φ : Type} (s : System φ) : View :=
  match s.current with
  | none => .noPool
  | some o => if o.poisoned then .poisoned else .pool o.pool

namespace Scenario

structure Report where
  result : Result
  /-- The results of the steps that surfaces took in between, in the order in which these ended. -/
  during : List Result
  requests : List Request
  /-- The serial numbers of the surfaces that ceased to exist, in increasing order. -/
  dropped : List Nat
  events : List Log.Event
  view : View

/-- The serial numbers of the surfaces that existed before or were made since, and are gone. -/
def droppedBetween {φ : Type} (before after : Device φ) : List Nat :=
  let made := List.range' (before.built + 1) (after.built - before.built)
  ((before.alive ++ made).filter fun serial => !after.alive.contains serial).mergeSort

def Stage.play (fuel : Nat) (t : Stage) (step : Step) : Report × Stage :=
  let before := t.system
  let t := { t with results := [] }.perform fuel step
  let after := t.system
  let report : Report :=
    { result := t.results.head?.getD .ok
      during := t.results.tail.reverse
      requests := newSince before.device.requests after.device.requests
      dropped := droppedBetween before.device after.device
      events := (newSince before.journal.entries after.journal.entries).map Log.Entry.event
      view := after.view }
  (report, t)

def Stage.playAll (fuel : Nat) (t : Stage) : List Step → List Report
  | [] => []
  | step :: steps =>
    let (report, t) := t.play fuel step
    report :: t.playAll fuel steps

def play (system : System Faults) (steps : List Step) : List Report :=
  Stage.playAll (weight steps + 1) { system } steps

/-- A process without a pool, in which all events are heard. -/
def start : System Faults :=
  { device := { allocator := {} }, journal := { library := .occupied } }

/-- A process with a bare pool, in which all events are heard. -/
def startBare (capacity : Nat) (nextId : BufferId) : System Faults :=
  { System.bare { allocator := {} } capacity nextId with journal := { library := .occupied } }

end Scenario

end SurfaceReuse
