import SurfaceReuse.Pending.Basic
import SurfaceReuse.Stats
import SurfaceReuse.Surface

set_option autoImplicit false

/-!
The state of a pool: the idle surfaces, oldest first, those that wait for their writes, and the
counters of the current period. The operations here change that state alone.
-/

namespace SurfaceReuse

namespace Surface

/-- Whether the surface can serve a request for `size`. -/
def fits (size : Size) (s : Surface) : Bool :=
  s.valid && s.size == size

/-- The surface after one more idle tick, unless that ends its time in the pool. -/
def tick? (maxAge : UInt32) (s : Surface) : Option Surface :=
  if s.valid && s.older.age < maxAge then some (s.withFeatures s.older) else none

/-- Whether a smaller surface can take the place of this one for good. -/
def shrinkable (s : Surface) : Bool :=
  s.oversized && s.stable

end Surface

structure Pool where
  /-- The idle surfaces, oldest first. -/
  available : List Surface := []
  pending : Pending Surface := .empty
  capacity : Nat
  nextId : BufferId := .first
  created : Nat := 0
  reused : Nat := 0
  lastReport : Stats := {}

namespace Pool

def take? (p : Pool) (size : Size) : Option (Surface × Pool) :=
  (p.available.find? (Surface.fits size)).map fun s =>
    (s, { p with available := p.available.eraseP (Surface.fits size) })

def push (p : Pool) (s : Surface) : Pool :=
  { p with available := p.available ++ [s] }

def isFull (p : Pool) : Bool :=
  p.capacity ≤ p.available.length

def issueId (p : Pool) : BufferId × Pool :=
  (p.nextId, { p with nextId := p.nextId.next })

def countCreated (p : Pool) : Pool :=
  { p with created := p.created + 1 }

def countReused (p : Pool) : Pool :=
  { p with reused := p.reused + 1 }

def cachedBytes (p : Pool) : Bytes :=
  Surface.totalFootprint p.available

def stats (p : Pool) (usage : CacheUsage) : Stats where
  cachedCount := p.available.length
  cachedBytes := p.cachedBytes
  created := p.created
  reused := p.reused
  pendingCount := p.pending.size
  cache := usage

def closePeriod (p : Pool) (report : Stats) : Pool :=
  { p with created := 0, reused := 0, lastReport := report }

def owned (p : Pool) : List Surface :=
  p.available ++ p.pending.values

/-- The pool with `f` applied to every surface it owns. -/
def mapSurfaces (p : Pool) (f : Surface → Surface) : Pool :=
  { p with available := p.available.map f, pending := p.pending.map f }

end Pool

end SurfaceReuse
