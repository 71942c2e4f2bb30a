import SurfaceReuse.BufferId
import SurfaceReuse.Config
import SurfaceReuse.Size
import SurfaceReuse.Text.Quoted

set_option autoImplicit false

/-!
Failures of pool operations. Each means that the caller has no surface to draw into now; none
wraps another.
-/

namespace SurfaceReuse

inductive PoolError where
  /-- The device had no surface of the size to give. -/
  | creationFailed (size : Size)
  /-- The surface that the device gave cannot be used. -/
  | invalidSurface (size : Size)
  /-- The surface was not ready to be handed out and is given up. -/
  | flushFailed (id : BufferId)
  | invalidConfig (reason : String)
  /-- An earlier operation panicked halfway through the pool's state. -/
  | poisoned
  deriving DecidableEq

namespace PoolError

instance : ToString PoolError where
  toString
    | .creationFailed size => "Could not create a " ++ toString size ++ " surface"
    | .invalidSurface size => "Created " ++ toString size ++ " surface is not valid"
    | .flushFailed id => "Could not flush acquire/release events for buffer " ++ toString id
    | .invalidConfig reason => "Invalid pool configuration: " ++ reason
    | .poisoned => "Surface pool mutex is poisoned"

/-- The failure behind this one; there is never one. -/
def cause? (_ : PoolError) : Option PoolError := none

open Text in
instance : Shown PoolError where
  tree
    | .creationFailed size => .record "CreationFailed" (.field "size" size .nil)
    | .invalidSurface size => .record "InvalidSurface" (.field "size" size .nil)
    | .flushFailed id => .record "FlushFailed" (.field "id" id .nil)
    | .invalidConfig reason => .around "InvalidConfig" (tree reason)
    | .poisoned => .leaf "Poisoned"

end PoolError

end SurfaceReuse
