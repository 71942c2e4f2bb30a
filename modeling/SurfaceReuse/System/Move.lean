import SurfaceReuse.System.Basic

set_option autoImplicit false

/-!
The moves of a process, and its runs. A call that runs code of a surface takes two moves: one
enters that code, and one leaves it again. What happens in between is what the surface's code
does, which may be anything, further calls included.
-/

namespace SurfaceReuse

open Log

inductive Move (φ : Type) where
  /-- A pool with this configuration, or with the default one, which is not checked. -/
  | openPool (config : Option Config)
  | closePool
  | acquire (size : Size)
  /-- The surface of the innermost call got ready, or did not. -/
  | flushed (ok : Bool)
  | submit (serial : Nat)
  /-- The surface of the innermost call took its hook. -/
  | registered
  /-- The surface's code in the innermost call panics. -/
  | unwind
  | fire (hook : Nat)
  | collect
  | shrink
  | report
  | lastReport
  | availableCount
  | pendingCount
  | cachedBytes
  | isPending (id : BufferId)
  | drop (serial : Nat)
  | build (features : Features)
  /-- A surface changes, wherever it is. -/
  | touch (serial : Nat) (change : Features → Features)
  | adjust (change : φ → φ)
  | reportUsage (usage : CacheUsage)

inductive Reply where
  /-- The move cannot be made: there is no such pool, surface, hook or call. -/
  | refused
  /-- Code of the surface runs now. -/
  | entered
  | done
  | handed (surface : Surface)
  | failed (error : PoolError)
  | panicked
  | stats (stats : Stats)
  | count (n : Nat)
  | bytes (n : Bytes)
  | flag (b : Bool)

namespace System

variable {φ : Type}

/-- The reply to a call that consists of one section under the lock. -/
def Section.reply {α : Type} (answer : α → Reply) : Section α → Reply
  | .absent => .refused
  | .ended (.ok value) => answer value
  | .ended (.failed error) => .failed error
  | .ended .panicked => .panicked

/-- A call that changes the pool's state under the lock and answers nothing. -/
def perform (s : System φ) (body : OpenPool → Locked φ → Ending Unit × Locked φ) :
    Reply × System φ :=
  let (result, s) := s.locked body
  (result.reply fun _ => .done, s)

/-- A call that looks at the pool's state under the lock. -/
def inspect (s : System φ) (look : Pool → Reply) : Reply :=
  (s.locked fun _ l => (.ok (look l.pool), l)).1.reply id

def openPool (s : System φ) (config : Option Config) : Reply × System φ :=
  if s.calls.isEmpty then
    match config with
    | none => (.done, s.replacePool {})
    | some config =>
      match config.fault? with
      | some fault => (.failed (.invalidConfig fault.message), s)
      | none => (.done, (s.startLogging config.logging).replacePool config)
  else (.refused, s)

def closePool (s : System φ) : Reply × System φ :=
  if s.calls.isEmpty && s.current.isSome then (.done, s.close) else (.refused, s)

def acquire [Allocator φ] (s : System φ) (size : Size) : Reply × System φ :=
  match s.locked fun _ l => l.obtain size with
  | (.absent, s) => (.refused, s)
  | (.ended (.ok (x, cached)), s) =>
    (.entered, { s with calls := .flushing (x.withFeatures x.rested) cached :: s.calls })
  | (.ended (.failed error), s) => (.failed error, s.log (.acquireFailed error size))
  | (.ended .panicked, s) => (.panicked, s)

/-- Hands the surface of the innermost call to the caller, if it is ready. Only then is an idle
    surface counted as reused. -/
def flushed (s : System φ) (ok : Bool) : Reply × System φ :=
  match s.calls with
  | .flushing x cached :: calls =>
    let s := { s with calls }
    if !ok then (.failed (.flushFailed x.id), (s.log (.flushFailed x.id)).release x)
    else if !cached then (.handed x, s.hold x)
    else
      match s.perform fun _ l => (.ok (), l.countReused) with
      | (.done, s) => (.handed x, s.hold x)
      | (reply, s) => (reply, s.release x)
  | _ => (.refused, s)

/-- Reserves the id of a held surface and gives the surface a hook. A surface whose id is tracked
    already is dropped. -/
def submit (s : System φ) (serial : Nat) : Reply × System φ :=
  match s.current, s.takeHeld? serial with
  | some o, some (x, s) =>
    match s.locked fun _ l => let (fresh, l) := l.reserve x.id; (.ok fresh, l) with
    | (.ended (.ok true), s) =>
      let number := s.registrations + 1
      (.entered, { s with
        calls := .registering x x.id number :: s.calls
        hooks := ⟨number, o.generation, x.id⟩ :: s.hooks
        registrations := number })
    | (.ended (.ok false), s) => (.done, (s.log (.alreadyPending x.id)).release x)
    | (result, s) => (result.reply fun _ => .done, s.release x)
  | _, _ => (.refused, s)

/-- Parks the surface of the innermost call, or recycles it if its hook was called already. If
    the pool was poisoned meanwhile, its reservation is given back and the surface dropped. -/
def registered (s : System φ) : Reply × System φ :=
  match s.calls with
  | .registering x id _ :: calls =>
    match { s with calls }.perform fun _ l => (.ok (), l.settle id x) with
    | (.failed error, s) => (.failed error, s.abandon id x)
    | result => result
  | _ => (.refused, s)

/-- The surface of the innermost call goes down with its own code. A reservation stays. -/
def unwind (s : System φ) : Reply × System φ :=
  match s.calls with
  | call :: calls => (.panicked, { s with calls }.release call.surface)
  | [] => (.refused, s)

/-- Calls a hook. It cannot be called again. -/
def fire (s : System φ) (hook : Nat) : Reply × System φ :=
  match s.hooks.find? fun h => h.number == hook with
  | none => (.refused, s)
  | some h => (.done, { s with hooks := s.hooks.erase h }.deliver h)

def drop (s : System φ) (serial : Nat) : Reply × System φ :=
  match s.takeHeld? serial with
  | none => (.refused, s)
  | some (x, s) => (.done, s.release x)

def build (s : System φ) (features : Features) : Reply × System φ :=
  let (x, device) := s.device.build features
  (.handed x, { s with device }.hold x)

/-- Changes the features of one surface, in whatever place it is. -/
def touch (s : System φ) (serial : Nat) (change : Features → Features) : System φ :=
  let f := Surface.touch serial change
  { s with
    held := s.held.map f
    calls := s.calls.map (Call.mapSurface f)
    current := s.current.map fun o => { o with pool := o.pool.mapSurfaces f } }

def step [Allocator φ] (s : System φ) : Move φ → Reply × System φ
  | .openPool config => s.openPool config
  | .closePool => s.closePool
  | .acquire size => s.acquire size
  | .flushed ok => s.flushed ok
  | .submit serial => s.submit serial
  | .registered => s.registered
  | .unwind => s.unwind
  | .fire hook => s.fire hook
  | .collect => s.perform fun o l => l.collect o.config.maxAge
  | .shrink => s.perform fun _ l => l.shrink
  | .report =>
    let (result, s) := s.locked fun _ l => (.ok l.report.pool.lastReport, l.report)
    (result.reply .stats, s)
  | .lastReport => (s.inspect fun p => .stats p.lastReport, s)
  | .availableCount => (s.inspect fun p => .count p.available.length, s)
  | .pendingCount => (s.inspect fun p => .count p.pending.size, s)
  | .cachedBytes => (s.inspect fun p => .bytes p.cachedBytes, s)
  | .isPending id => (s.inspect fun p => .flag (p.pending.contains id), s)
  | .drop serial => s.drop serial
  | .build features => s.build features
  | .touch serial change => (.done, s.touch serial change)
  | .adjust change =>
    (.done, { s with device := { s.device with allocator := change s.device.allocator } })
  | .reportUsage usage => (.done, { s with device := { s.device with usage } })

/-- One whole acquisition. The surface gets ready or does not, or its code panics, if `ready` does
    not say. -/
def fetch [Allocator φ] (s : System φ) (size : Size) (ready : Option Bool) : Reply × System φ :=
  match s.step (.acquire size) with
  | (.entered, s) => s.step (ready.elim .unwind .flushed)
  | result => result

def run [Allocator φ] (s : System φ) (moves : List (Move φ)) : System φ :=
  moves.foldl (fun s move => (s.step move).2) s

end System

end SurfaceReuse
