import SurfaceReuse.System.Move

set_option autoImplicit false

/-!
Single steps on the state of the pool in use, taken by a caller that holds its lock itself. What
the operations put together can be driven here piece by piece, in any order.
-/

namespace SurfaceReuse

inductive Probe where
  | create (size : Size)
  | take (size : Size)
  | recycle (serial : Nat)
  | report
  | reserve (id : BufferId)
  | park (id : BufferId) (serial : Nat)
  | contains (id : BufferId)
  | trackedCount
  | signal (id : BufferId)
  /-- Panics with the lock held. -/
  | poison

namespace System

variable {φ : Type}

/-- A process with an empty pool of that capacity, whose next id is given. -/
def bare (device : Device φ) (capacity : Nat) (nextId : BufferId) : System φ :=
  { device
    opened := 1
    current := some
      { generation := 1
        config := { maxSurfaces := capacity }
        pool := { capacity, nextId } } }

/-- A surface goes to the caller. -/
def handOver (s : System φ) (x : Surface) : Reply × System φ :=
  (.handed x, s.hold x)

def createOne [Allocator φ] (s : System φ) (size : Size) : Reply × System φ :=
  match s.locked fun _ l => l.create size with
  | (.ended (.ok x), s) => s.handOver x
  | (result, s) => (result.reply .handed, s)

def takeOne (s : System φ) (size : Size) : Reply × System φ :=
  match s.locked fun _ l => ((l.take? size).elim (.ok none, l) fun (x, l) => (.ok (some x), l)) with
  | (.ended (.ok (some x)), s) => s.handOver x
  | (result, s) => (result.reply fun _ => .done, s)

/-- A step that needs a held surface. The lock is taken before the surface is looked for. -/
def withHeld (s : System φ) (serial : Nat) (body : Surface → System φ → Reply × System φ) :
    Reply × System φ :=
  match s.inspect fun _ => .done with
  | .done => (s.takeHeld? serial).elim (.refused, s) fun (x, s) => body x s
  | reply => (reply, s)

def recycleOne (s : System φ) (serial : Nat) : Reply × System φ :=
  s.withHeld serial fun x s => s.perform fun _ l => (.ok (), l.recycle x)

def parkOne (s : System φ) (id : BufferId) (serial : Nat) : Reply × System φ :=
  s.withHeld serial fun x s =>
    match s.locked fun _ l => let (back, l) := l.park id x; (.ok back, l) with
    | (.ended (.ok (some x)), s) => s.handOver x
    | (result, s) => (result.reply fun _ => .done, s)

def reserveOne (s : System φ) (id : BufferId) : Reply × System φ :=
  let (result, s) := s.locked fun _ l => let (fresh, l) := l.reserve id; (.ok fresh, l)
  (result.reply .flag, s)

def poison (s : System φ) : System φ :=
  { s with current := s.current.map fun o => { o with poisoned := true } }

def probe [Allocator φ] (s : System φ) : Probe → Reply × System φ
  | .create size => s.createOne size
  | .take size => s.takeOne size
  | .recycle serial => s.recycleOne serial
  | .report => s.step .report
  | .reserve id => s.reserveOne id
  | .park id serial => s.parkOne id serial
  | .contains id => s.step (.isPending id)
  | .trackedCount => s.step .pendingCount
  | .signal id => (.done, s.signal id)
  | .poison => (.done, s.poison)

end System

end SurfaceReuse
