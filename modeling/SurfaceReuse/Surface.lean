import SurfaceReuse.BufferId
import SurfaceReuse.Bytes
import SurfaceReuse.Size

set_option autoImplicit false

/-!
Surfaces as the pool sees them: the answers that a surface gives about itself, and a serial
number that tells it from every other surface, whatever id it claims.
-/

namespace SurfaceReuse

/-- What a surface says about itself. -/
structure Features where
  id : BufferId
  size : Size
  valid : Bool := true
  /-- Whether more memory is behind the surface than its size needs. -/
  oversized : Bool := false
  /-- Whether the recent uses of the surface all asked for one size. -/
  stable : Bool := true
  /-- The maintenance ticks that the surface has been idle for. -/
  age : UInt32 := 0
  /-- The memory behind the surface, where it is not the usual amount for its size. -/
  allocation : Option Bytes := none
  deriving DecidableEq

namespace Features

/-- The memory behind the surface. By default a pixel takes four bytes, and twice as many in an
    oversized surface. -/
def footprint (f : Features) : Bytes :=
  f.allocation.getD (.clamp (f.size.area * if f.oversized then 8 else 4))

/-- One tick older; the age stops at the largest one. -/
def older (f : Features) : Features :=
  { f with age := if f.age = .ofNat (UInt32.size - 1) then f.age else f.age + 1 }

/-- Ready for use: no longer idle. -/
def rested (f : Features) : Features :=
  { f with age := 0 }

end Features

structure Surface extends Features where
  serial : Nat
  deriving DecidableEq

namespace Surface

def withFeatures (s : Surface) (f : Features) : Surface :=
  { s with toFeatures := f }

/-- The surface after `f` happened to it, if it is the one with that serial number. -/
def touch (serial : Nat) (f : Features → Features) (s : Surface) : Surface :=
  if s.serial = serial then s.withFeatures (f s.toFeatures) else s

@[simp] theorem touch_serial (serial : Nat) (f : Features → Features) (s : Surface) :
    (s.touch serial f).serial = s.serial := by
  unfold touch
  split <;> rfl

end Surface

namespace Surface

def totalFootprint (surfaces : List Surface) : Bytes :=
  surfaces.foldl (fun total s => total + s.footprint) 0

/-- The memory that the surfaces of a list would take together, were there no limit. -/
def exactFootprint (surfaces : List Surface) : Nat :=
  surfaces.foldr (fun s total => s.footprint.count + total) 0

theorem foldl_footprint (surfaces : List Surface) (n : Nat) :
    surfaces.foldl (fun total s => total + s.footprint) (Bytes.clamp n) =
      Bytes.clamp (n + exactFootprint surfaces) := by
  induction surfaces generalizing n with
  | nil => rfl
  | cons s surfaces ih =>
    rw [List.foldl_cons, ← Bytes.clamp_count s.footprint, Bytes.clamp_add_clamp, ih]
    rw [Nat.add_assoc]
    rfl

theorem totalFootprint_eq (surfaces : List Surface) :
    totalFootprint surfaces = Bytes.clamp (exactFootprint surfaces) := by
  have h := foldl_footprint surfaces 0
  rw [Nat.zero_add] at h
  exact h

end Surface

end SurfaceReuse
