import SurfaceReuse.Bytes
import SurfaceReuse.Text.Tree

set_option autoImplicit false

/-!
Usage reports. A report closes a period: it counts what was created and reused since the
report before, and describes the rest as it stands at the moment of the report.
-/

namespace SurfaceReuse

/-- What the graphics layer's own resource cache holds. -/
structure CacheUsage where
  resources : Nat := 0
  bytes : Bytes := 0
  purgeable : Bytes := 0
  deriving DecidableEq

structure Stats where
  cachedCount : Nat := 0
  cachedBytes : Bytes := 0
  created : Nat := 0
  reused : Nat := 0
  pendingCount : Nat := 0
  cache : CacheUsage := {}
  deriving DecidableEq

namespace Stats

instance : Inhabited Stats := ⟨{}⟩

/-- The memory of the idle surfaces and of the resource cache together. -/
def totalBytes (s : Stats) : Bytes :=
  s.cachedBytes + s.cache.bytes

def isIdle (s : Stats) : Bool :=
  s.created == 0 && s.reused == 0

/-- The share of reuses among all surfaces created or reused in the period, in percent. Both
    counts are rounded to binary64 first, then divided, then scaled. -/
def reusePercent (s : Stats) : Float :=
  let total := s.created + s.reused
  if total = 0 then 0
  else s.reused.toUInt64.toFloat / total.toUInt64.toFloat * 100

open Text in
instance : Shown Stats where
  tree s := .record "PoolStats"
    (.field "cached_count" s.cachedCount
    (.field "cached_bytes" s.cachedBytes.count
    (.field "created" s.created
    (.field "reused" s.reused
    (.field "pending_count" s.pendingCount
    (.field "cache_resources" s.cache.resources
    (.field "cache_bytes" s.cache.bytes.count
    (.field "cache_purgeable_bytes" s.cache.purgeable.count .nil))))))))

end Stats

end SurfaceReuse
