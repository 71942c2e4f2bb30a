import SurfaceReuse.Pool.Locked

set_option autoImplicit false

/-!
A process that uses a pool. Besides the pool it has the surfaces its caller holds, the calls
in progress that run code of a surface, and the completion hooks that were given to surfaces
and not called yet. Pools may follow one another; a hook remembers the pool it belongs to.
-/

namespace SurfaceReuse

open Log

structure OpenPool where
  generation : Nat
  config : Config
  pool : Pool
  /-- Whether an operation panicked while it held the lock. Then no lock is given any more. -/
  poisoned : Bool := false

/-- A call that waits for code of a surface to return. It owns the surface. -/
inductive Call where
  /-- The surface gets ready to be handed out; `cached` if it was an idle one. -/
  | flushing (surface : Surface) (cached : Bool)
  /-- The surface was given the hook of this number, and `id` is reserved for it. -/
  | registering (surface : Surface) (id : BufferId) (hook : Nat)

namespace Call

def surface : Call → Surface
  | .flushing s _ => s
  | .registering s _ _ => s

def mapSurface (f : Surface → Surface) : Call → Call
  | .flushing s cached => .flushing (f s) cached
  | .registering s id hook => .registering (f s) id hook

end Call

/-- The right to signal one completion, once. -/
structure Hook where
  number : Nat
  generation : Nat
  id : BufferId
  deriving DecidableEq

structure System (φ : Type) where
  current : Option OpenPool := none
  device : Device φ
  journal : Journal := {}
  held : List Surface := []
  /-- The calls in progress, the innermost first. -/
  calls : List Call := []
  hooks : List Hook := []
  opened : Nat := 0
  registrations : Nat := 0

namespace System

variable {φ : Type}

def log (s : System φ) (e : Event) : System φ :=
  { s with journal := s.journal.emit e }

def release (s : System φ) (x : Surface) : System φ :=
  { s with device := s.device.release x }

def hold (s : System φ) (x : Surface) : System φ :=
  { s with held := s.held ++ [x] }

def takeHeld? (s : System φ) (serial : Nat) : Option (Surface × System φ) :=
  (s.held.find? fun x => x.serial == serial).map fun x =>
    (x, { s with held := s.held.eraseP fun x => x.serial == serial })

def pooled (s : System φ) : List Surface :=
  s.current.elim [] fun o => o.pool.owned

def owned (s : System φ) : List Surface :=
  s.held ++ s.calls.map Call.surface ++ s.pooled

def inside (s : System φ) (o : OpenPool) : Locked φ :=
  ⟨o.pool, s.device, s.journal⟩

def leave (s : System φ) (o : OpenPool) (l : Locked φ) : System φ :=
  { s with current := some { o with pool := l.pool }, device := l.device, journal := l.journal }

inductive Section (α : Type) where
  | absent
  | ended (ending : Ending α)

/-- Runs `body` with the pool's lock held. A poisoned pool gives no lock, and a panic of `body`
    poisons the pool. -/
def locked {α : Type} (s : System φ) (body : OpenPool → Locked φ → Ending α × Locked φ) :
    Section α × System φ :=
  match s.current with
  | none => (.absent, s)
  | some o =>
    if o.poisoned then (.ended (.failed .poisoned), s)
    else
      let (ending, l) := body o (s.inside o)
      (.ended ending, s.leave { o with poisoned := ending.isPanic } l)

def signal (s : System φ) (id : BufferId) : System φ :=
  match s.locked fun _ l => (.ok (), l.complete id) with
  | (.ended (.failed error), s) => s.log (.completionUndeliverable error id)
  | (_, s) => s

/-- Gives back the reservation of `id` in a poisoned pool, past the lock, and lets go of the
    surface it was made for. -/
def abandon (s : System φ) (id : BufferId) (x : Surface) : System φ :=
  match s.current with
  | none => s.release x
  | some o => ((s.leave o ((s.inside o).forget id)).log (.poisonedDuringSubmit id)).release x

/-- What calling a hook does: nothing once its pool is gone. -/
def deliver (s : System φ) (h : Hook) : System φ :=
  if s.current.any fun o => o.generation == h.generation then s.signal h.id else s

def close (s : System φ) : System φ :=
  match s.current with
  | none => s
  | some o =>
    let count := o.pool.pending.size
    let s := if o.poisoned || count == 0 then s else s.log (.pendingReleased count)
    { s with current := none, device := s.device.releaseAll o.pool.owned }

def replacePool (s : System φ) (config : Config) : System φ :=
  let generation := s.opened + 1
  let fresh : OpenPool := { generation, config, pool := { capacity := config.maxSurfaces } }
  { s.close with current := some fresh, opened := generation }

def startLogging (s : System φ) (l : Logging) : System φ :=
  if l.enabled then
    let (installed, journal) := s.journal.install l
    let s := { s with journal }
    if installed then s else s.log .subscriberKept
  else s

end System

/-- The entries that were put in front of a list, the oldest first. -/
def newSince {α : Type} (before after : List α) : List α :=
  (after.take (after.length - before.length)).reverse

theorem newSince_append {α : Type} (new old : List α) :
    newSince old (new ++ old) = new.reverse := by
  unfold newSince
  rw [List.length_append, Nat.add_sub_cancel, List.take_left]

end SurfaceReuse
