import SurfaceReuse.Text.Tree

set_option autoImplicit false

/-!
Sets of code points, given by closed ranges.
-/

namespace SurfaceReuse.Text

/-- Whether `n` lies in one of the ranges; both ends of a range belong to it. -/
def inRanges (ranges : List (Nat × Nat)) (n : Nat) : Bool :=
  ranges.any fun r => r.1 ≤ n && n ≤ r.2

end SurfaceReuse.Text
