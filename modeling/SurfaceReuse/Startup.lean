import SurfaceReuse.Log.Console
import SurfaceReuse.Scenario.Play

set_option autoImplicit false

/-!
How logging comes up in a process that starts without a subscriber: calls that install one, and
short-lived pools that log a little.
-/

namespace SurfaceReuse.Startup

variable {φ : Type}

/-- A pool that is opened may have another allocator than the one before it. -/
inductive Call (φ : Type := Scenario.Faults) where
  | install (l : Logging)
  /-- Opens a pool, and acquires and drops one surface. The surface gets ready or does not, or
      its code panics, if `ready` does not say. -/
  | openPool (config : Config) (size : Size := ⟨8, 8⟩) (ready : Option Bool := some true)
      (allocator : Option φ := none)
  /-- Opens a pool with the default configuration and asks for one report. -/
  | openDefault (allocator : Option φ := none)

inductive Answer where
  | installed (b : Bool)
  | acquired (id : BufferId)
  | created (n : Nat)
  | failed (error : PoolError)
  /-- The call panicked. -/
  | nothing

def start (library : Log.Library) (allocator : φ) : System φ :=
  { device := { allocator }, journal := { library } }

def equip (s : System φ) (allocator : Option φ) : System φ :=
  { s with device := { s.device with allocator := allocator.getD s.device.allocator } }

variable [Allocator φ]

/-- What was acquired goes out of existence, and the pool is closed. -/
def finish : Reply × System φ → Answer × System φ
  | (.handed x, s) => (.acquired x.id, s.run [.drop x.serial, .closePool])
  | (.failed error, s) => (.failed error, s.run [.closePool])
  | (_, s) => (.nothing, s.run [.closePool])

def answer (s : System φ) : Call φ → Answer × System φ
  | .install l =>
    let (installed, journal) := s.journal.install l
    (.installed installed, { s with journal })
  | .openPool config size ready allocator =>
    match s.step (.openPool (some config)) with
    | (.done, s) => finish ((equip s allocator).fetch size ready)
    | (.failed error, s) => (.failed error, s)
    | (_, s) => (.nothing, s)
  | .openDefault allocator =>
    match ((equip s allocator).run [.openPool none]).step .report with
    | (.stats stats, s) => (.created stats.created, s.run [.closePool])
    | (_, s) => (.nothing, s)

/-- The answers to a row of calls, each with whether there is a subscriber afterwards, and the
    process after them. -/
def answers (s : System φ) : List (Call φ) → List (Answer × Bool) × System φ
  | [] => ([], s)
  | call :: calls =>
    let (a, s) := answer s call
    let (rest, last) := answers s calls
    ((a, !s.journal.installed.isEmpty) :: rest, last)

structure Record where
  /-- The answers, each with whether there is a subscriber afterwards. -/
  answers : List (Answer × Bool)
  lines : Nat
  /-- Whether something was written in colour. -/
  coloured : Bool

def record (library : Log.Library) (allocator : φ) (calls : List (Call φ)) : Record :=
  let (answers, s) := answers (start library allocator) calls
  let lines := s.journal.written.length
  ⟨answers, lines, decide (0 < lines) && s.journal.installed.any fun x => x.ansi⟩

def run (calls : List Call) : Record :=
  record .console {} calls

end SurfaceReuse.Startup
