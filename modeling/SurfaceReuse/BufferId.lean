import SurfaceReuse.Text.Tree

set_option autoImplicit false

/-!
Buffer ids. A pool numbers the surfaces it asks for, and the number of a surface is the key
under which it is tracked while its writes are unfinished.
-/

namespace SurfaceReuse

structure BufferId where
  number : UInt64
  deriving DecidableEq

namespace BufferId

instance : Inhabited BufferId := ⟨⟨0⟩⟩

/-- The id a new pool starts from. -/
def first : BufferId := ⟨1⟩

/-- The id after this one. Behind the last of the 2 ^ 64 ids the count begins at 0 again. -/
def next (id : BufferId) : BufferId := ⟨id.number + 1⟩

instance : Ord BufferId where
  compare a b := compare a.number b.number

instance : ToString BufferId where
  toString id := toString id.number.toNat

open Text in
instance : Shown BufferId where
  tree id := .around "BufferId" (tree id.number)

theorem next_toNat (id : BufferId) :
    id.next.number.toNat = (id.number.toNat + 1) % UInt64.size := by
  exact UInt64.toNat_add id.number 1

end BufferId

end SurfaceReuse
