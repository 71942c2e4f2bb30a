import SurfaceReuse.Error
import SurfaceReuse.Log.Level
import SurfaceReuse.Stats

set_option autoImplicit false

/-!
The events that a pool logs. An event is a cause with its data; level, target, message and
fields are read off it, and its line of text is put together from these.
-/

namespace SurfaceReuse.Log

/-- The target of the pool's operational events. -/
def poolTarget : String := "surface_pool"

/-- The target of the usage reports; it lies below the pool's target. -/
def statsTarget : String := poolTarget ++ "::stats"

inductive Event where
  | initialized (level : Level)
  | subscriberKept
  | matchFound (id : BufferId)
  | created (id : BufferId) (size : Size)
  | newSurfaceInvalid (id : BufferId) (size : Size)
  | acquireFailed (cause : PoolError) (size : Size)
  | flushFailed (id : BufferId)
  | alreadyPending (id : BufferId)
  | poisonedDuringSubmit (id : BufferId)
  | completionUntracked (id : BufferId)
  | completionEarly (id : BufferId)
  | completionUndeliverable (cause : PoolError) (id : BufferId)
  | invalidDropped (id : BufferId)
  | surplusDropped (id : BufferId) (capacity : Nat)
  | oldCollected (count : Nat)
  | shrinking (id : BufferId) (size : Size)
  | shrinkFailed (cause : PoolError) (size : Size)
  | resizeFailed (cause : PoolError) (size : Size)
  | pendingReleased (count : Nat)
  | reported (stats : Stats)
  deriving DecidableEq

namespace Event

def level : Event → Level
  | .matchFound _ | .completionUntracked _ | .completionEarly _ => .trace
  | .alreadyPending _ => .warn
  | .flushFailed _ | .poisonedDuringSubmit _ | .completionUndeliverable .. => .error
  | .shrinkFailed .. | .resizeFailed .. => .error
  | _ => .debug

def target : Event → String
  | .reported _ => statsTarget
  | _ => poolTarget

def message : Event → String
  | .initialized _ => "logging initialized"
  | .subscriberKept => "subscriber already installed, keeping it"
  | .matchFound _ => "exact match found"
  | .created .. => "created surface"
  | .newSurfaceInvalid .. => "discarding invalid new surface"
  | .acquireFailed cause _ => "could not acquire surface: " ++ toString cause
  | .flushFailed _ => "could not flush acquire/release events for buffer"
  | .alreadyPending _ => "surface already pending, dropping duplicate"
  | .poisonedDuringSubmit _ => "pool state poisoned during submit, dropping surface"
  | .completionUntracked _ => "completion for untracked surface"
  | .completionEarly _ => "completion arrived before surface was parked"
  | .completionUndeliverable cause _ => "cannot recycle surface: " ++ toString cause
  | .invalidDropped _ => "dropping invalid surface"
  | .surplusDropped .. => "too many surfaces in pool, dropping"
  | .oldCollected _ => "collected old surfaces"
  | .shrinking .. => "replacing surface with smaller one"
  | .shrinkFailed cause _ => "failed to create a new shrunk surface: " ++ toString cause
  | .resizeFailed cause _ => "failed to create resized surface: " ++ toString cause
  | .pendingReleased _ => "releasing surfaces still pending in consumer"
  | .reported _ => "surface pool stats"

/-- The data of an event, by name. -/
def fields : Event → List (String × String)
  | .initialized level => [("level", toString level)]
  | .subscriberKept => []
  | .matchFound id | .flushFailed id | .alreadyPending id | .poisonedDuringSubmit id
  | .completionUntracked id | .completionEarly id | .completionUndeliverable _ id
  | .invalidDropped id => [("buffer_id", toString id)]
  | .created id size | .newSurfaceInvalid id size | .shrinking id size =>
    [("buffer_id", toString id), ("size", toString size)]
  | .acquireFailed _ size | .shrinkFailed _ size | .resizeFailed _ size =>
    [("size", toString size)]
  | .surplusDropped id capacity =>
    [("buffer_id", toString id), ("max_surfaces", toString capacity)]
  | .oldCollected count => [("aged_surfaces", toString count)]
  | .pendingReleased count => [("pending_in_consumer", toString count)]
  | .reported s =>
    [("cached_count", toString s.cachedCount), ("created", toString s.created),
      ("reused", toString s.reused), ("pending_in_consumer", toString s.pendingCount),
      ("cache_resources", toString s.cache.resources),
      ("cached_bytes", toString s.cachedBytes.count),
      ("cache_bytes", toString s.cache.bytes.count),
      ("cache_purgeable_bytes", toString s.cache.purgeable.count)]

/-- The event as one line of text. -/
def line (e : Event) : String :=
  toString e.level ++ " " ++ e.target ++ ": " ++ e.message ++
    String.join (e.fields.map fun f => " " ++ f.1 ++ "=" ++ f.2)

end Event

end SurfaceReuse.Log
