import SurfaceReuse.Device
import SurfaceReuse.Ending
import SurfaceReuse.Log.Journal
import SurfaceReuse.Pool.Basic

set_option autoImplicit false

/-!
What an operation does while it holds the pool's lock. It reaches the pool, the device and the
journal. A panic of the device ends it at once, and what it did until then stays done.
-/

namespace SurfaceReuse

open Log

structure Locked (φ : Type) where
  pool : Pool
  device : Device φ
  journal : Journal

namespace Locked

variable {φ : Type}

def log (l : Locked φ) (e : Event) : Locked φ :=
  { l with journal := l.journal.emit e }

def release (l : Locked φ) (s : Surface) : Locked φ :=
  { l with device := l.device.release s }

def releaseAll (l : Locked φ) (surfaces : List Surface) : Locked φ :=
  { l with device := l.device.releaseAll surfaces }

def push (l : Locked φ) (s : Surface) : Locked φ :=
  { l with pool := l.pool.push s }

def countReused (l : Locked φ) : Locked φ :=
  { l with pool := l.pool.countReused }

/-- Reports the period and starts a new one. -/
def report (l : Locked φ) : Locked φ :=
  let stats := l.pool.stats l.device.usage
  { l.log (.reported stats) with pool := l.pool.closePeriod stats }

def take? (l : Locked φ) (size : Size) : Option (Surface × Locked φ) :=
  (l.pool.take? size).map fun (s, pool) => (s, { l with pool }.log (.matchFound s.id))

/-- Asks the device for a surface under the next id. The id is spent in any case. -/
def create [Allocator φ] (l : Locked φ) (size : Size) : Ending Surface × Locked φ :=
  let (id, pool) := l.pool.issueId
  let (grant, device) := l.device.request size id
  let l := { l with pool, device }
  match grant with
  | .refused => (.failed (.creationFailed size), l)
  | .panicked => (.panicked, l)
  | .made s =>
    if s.valid then
      (.ok s, { l with pool := l.pool.countCreated }.log (.created id size))
    else
      (.failed (.invalidSurface size), (l.log (.newSurfaceInvalid id size)).release s)

/-- A surface for the caller, and whether it was an idle one. -/
def obtain [Allocator φ] (l : Locked φ) (size : Size) : Ending (Surface × Bool) × Locked φ :=
  match l.take? size with
  | some (s, l) => (.ok (s, true), l)
  | none =>
    let (ending, l) := l.create size
    (ending.map fun s => (s, false), l)

/-- Makes a surface idle, if it is valid and there is room. An invalid one goes without a
    report. -/
def recycle (l : Locked φ) (s : Surface) : Locked φ :=
  if s.valid then
    let l :=
      if l.pool.isFull then (l.log (.surplusDropped s.id l.pool.capacity)).release s
      else l.push s
    l.report
  else (l.log (.invalidDropped s.id)).release s

def reserve (l : Locked φ) (id : BufferId) : Bool × Locked φ :=
  let (fresh, pending) := l.pool.pending.reserve id
  (fresh, { l with pool := { l.pool with pending } })

/-- Parks a surface under `id`, and hands it back if nothing is tracked there. A surface that was
    parked there before is let go. -/
def park (l : Locked φ) (id : BufferId) (s : Surface) : Option Surface × Locked φ :=
  let (parking, pending) := l.pool.pending.park id s
  let l := { l with pool := { l.pool with pending } }
  match parking with
  | .stored none => (none, l)
  | .stored (some displaced) => (none, l.release displaced)
  | .returned s => (some s, l)

/-- The second half of a submission: the surface waits in its slot, or is recycled at once if the
    slot is gone. -/
def settle (l : Locked φ) (id : BufferId) (s : Surface) : Locked φ :=
  match l.park id s with
  | (none, l) => l
  | (some s, l) => l.recycle s

def complete (l : Locked φ) (id : BufferId) : Locked φ :=
  let (completion, pending) := l.pool.pending.complete id
  let l := { l with pool := { l.pool with pending } }
  match completion with
  | .untracked => l.log (.completionUntracked id)
  | .early => l.log (.completionEarly id)
  | .ready s => l.recycle s

def forget (l : Locked φ) (id : BufferId) : Locked φ :=
  let (completion, pending) := l.pool.pending.complete id
  let l := { l with pool := { l.pool with pending } }
  match completion with
  | .ready s => l.release s
  | _ => l

/-- Creates an idle surface of a size. That there is none to be had is only noted down. -/
def replenish [Allocator φ] (l : Locked φ) (size : Size) (note : PoolError → Size → Event) :
    Ending Unit × Locked φ :=
  match l.create size with
  | (.ok s, l) => (.ok (), l.push s)
  | (.failed error, l) => (.ok (), l.log (note error size))
  | (.panicked, l) => (.panicked, l)

/-- One maintenance tick for the idle surfaces. Those that are invalid or too old go. -/
def evict (l : Locked φ) (maxAge : UInt32) : Locked φ :=
  let old := l.pool.available.filter fun s => (s.tick? maxAge).isNone
  let kept := l.pool.available.filterMap (Surface.tick? maxAge)
  let l := { l with pool := { l.pool with available := kept } }
  (if old.isEmpty then l else l.log (.oldCollected old.length)).releaseAll old

/-- Replaces the first idle surface that can be made smaller. It goes before its replacement is
    asked for. -/
def shrinkFirst [Allocator φ] (l : Locked φ) : Ending Unit × Locked φ :=
  match l.pool.available.find? Surface.shrinkable with
  | none => (.ok (), l)
  | some s =>
    let rest := l.pool.available.eraseP Surface.shrinkable
    let l := { l with pool := { l.pool with available := rest } }
    ((l.log (.shrinking s.id s.size)).release s).replenish s.size .shrinkFailed

/-- One tick, at most one replacement, and a report. -/
def collect [Allocator φ] (l : Locked φ) (maxAge : UInt32) : Ending Unit × Locked φ :=
  match (l.evict maxAge).shrinkFirst with
  | (.panicked, l) => (.panicked, l)
  | (ending, l) => (ending, l.report)

def replenishAll [Allocator φ] (l : Locked φ) : List Size → Ending Unit × Locked φ
  | [] => (.ok (), l)
  | size :: sizes =>
    match l.replenish size .resizeFailed with
    | (.panicked, l) => (.panicked, l)
    | (_, l) => l.replenishAll sizes

/-- Replaces all oversized idle surfaces. All of them go before the first replacement is asked
    for. -/
def shrink [Allocator φ] (l : Locked φ) : Ending Unit × Locked φ :=
  let large := l.pool.available.filter fun s => s.oversized
  let kept := l.pool.available.filter fun s => !s.oversized
  let l := { l with pool := { l.pool with available := kept } }.releaseAll large
  match l.replenishAll (large.map fun s => s.size) with
  | (.panicked, l) => (.panicked, l)
  | (ending, l) => (ending, l.report)

end Locked

end SurfaceReuse
