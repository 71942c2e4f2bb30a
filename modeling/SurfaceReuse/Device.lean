import SurfaceReuse.Stats
import SurfaceReuse.Surface

set_option autoImplicit false

/-!
The device that surfaces come from. How it answers a request is left to an allocator; the device
gives every surface that is made its serial number, knows which surfaces exist, and keeps the
requests it got.
-/

namespace SurfaceReuse

inductive Answer where
  | refused
  | panicked
  | made (features : Features)

/-- Allocators with state `φ`. -/
class Allocator (φ : Type) where
  answer : φ → Size → BufferId → Answer × φ

inductive Outcome where
  | served
  | refused
  | unusable
  | panicked
  deriving DecidableEq

def Answer.outcome : Answer → Outcome
  | .refused => .refused
  | .panicked => .panicked
  | .made features => if features.valid then .served else .unusable

structure Request where
  id : BufferId
  size : Size
  /-- The serial numbers of the surfaces that existed when the request was made. -/
  existing : List Nat
  outcome : Outcome

structure Device (φ : Type) where
  allocator : φ
  usage : CacheUsage := {}
  /-- How many surfaces were made so far; they have the serial numbers from 1 to this one. -/
  built : Nat := 0
  /-- The serial numbers of the surfaces that exist, newest first. -/
  alive : List Nat := []
  /-- The requests so far, newest first. -/
  requests : List Request := []

namespace Device

variable {φ : Type}

/-- Makes a surface without asking the allocator. -/
def build (d : Device φ) (features : Features) : Surface × Device φ :=
  let serial := d.built + 1
  (⟨features, serial⟩, { d with built := serial, alive := serial :: d.alive })

/-- Lets a surface cease to exist. -/
def release (d : Device φ) (s : Surface) : Device φ :=
  { d with alive := d.alive.erase s.serial }

def releaseAll (d : Device φ) (surfaces : List Surface) : Device φ :=
  surfaces.foldl release d

inductive Grant where
  | refused
  | panicked
  | made (surface : Surface)

/-- Asks for a surface of a size under an id. -/
def request [Allocator φ] (d : Device φ) (size : Size) (id : BufferId) : Grant × Device φ :=
  let (answer, allocator) := Allocator.answer d.allocator size id
  let entry : Request := ⟨id, size, d.alive, answer.outcome⟩
  let d := { d with allocator, requests := entry :: d.requests }
  match answer with
  | .refused => (.refused, d)
  | .panicked => (.panicked, d)
  | .made features =>
    let (surface, d) := d.build features
    (.made surface, d)

end Device

end SurfaceReuse
