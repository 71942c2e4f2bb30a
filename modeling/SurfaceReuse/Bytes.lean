set_option autoImplicit false

/-!
Amounts of device memory. An amount never exceeds what a 64-bit counter can hold: a sum
that would pass the limit stops there, so a total can be too small but never wraps around.
-/

namespace SurfaceReuse

/-- The largest amount of memory that is counted. -/
abbrev byteLimit : Nat := UInt64.size - 1

structure Bytes where
  count : Nat
  count_le : count ≤ byteLimit
  deriving DecidableEq

namespace Bytes

/-- The amount `n`, or the limit where `n` lies beyond it. -/
def clamp (n : Nat) : Bytes :=
  ⟨min n byteLimit, Nat.min_le_right _ _⟩

instance : Zero Bytes := ⟨clamp 0⟩

instance : Inhabited Bytes := ⟨0⟩

/-- Addition that stops at the limit. -/
instance : Add Bytes := ⟨fun a b => clamp (a.count + b.count)⟩

@[ext] theorem ext {a b : Bytes} (h : a.count = b.count) : a = b := by
  cases a; cases b; cases h; rfl

@[simp] theorem count_clamp (n : Nat) : (clamp n).count = min n byteLimit := rfl

@[simp] theorem count_add (a b : Bytes) : (a + b).count = min (a.count + b.count) byteLimit := rfl

/-- Stopping at the limit once and stopping there twice come to the same. -/
theorem clamp_add_clamp (m n : Nat) : clamp m + clamp n = clamp (m + n) := by
  apply ext
  rw [count_add, count_clamp, count_clamp, count_clamp]
  omega

theorem clamp_count (a : Bytes) : clamp a.count = a := by
  apply ext
  rw [count_clamp]
  exact Nat.min_eq_left a.count_le

end Bytes

end SurfaceReuse
