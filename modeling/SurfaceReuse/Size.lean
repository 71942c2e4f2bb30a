import SurfaceReuse.Text.Tree

set_option autoImplicit false

/-!
Pixel dimensions. Sizes are ordered by width and then by height.
-/

namespace SurfaceReuse

structure Size where
  width : UInt32
  height : UInt32
  deriving DecidableEq

namespace Size

instance : Inhabited Size := ⟨⟨0, 0⟩⟩

def area (s : Size) : Nat :=
  s.width.toNat * s.height.toNat

def isEmpty (s : Size) : Bool :=
  s.width == 0 || s.height == 0

instance : Ord Size where
  compare a b := (compare a.width b.width).then (compare a.height b.height)

instance : ToString Size where
  toString s := toString s.width.toNat ++ "x" ++ toString s.height.toNat

open Text in
instance : Shown Size where
  tree s := .record "SurfaceSize" (.field "width" s.width (.field "height" s.height .nil))

end Size

end SurfaceReuse
