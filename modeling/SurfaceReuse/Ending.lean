import SurfaceReuse.Error

set_option autoImplicit false

/-!
How an operation ends.
-/

namespace SurfaceReuse

inductive Ending (α : Type) where
  | ok (value : α)
  | failed (error : PoolError)
  /-- Foreign code panicked and the operation was left halfway. -/
  | panicked

namespace Ending

variable {α β : Type}

def map (f : α → β) : Ending α → Ending β
  | .ok value => .ok (f value)
  | .failed error => .failed error
  | .panicked => .panicked

def isPanic : Ending α → Bool
  | .panicked => true
  | _ => false

section Map

variable {f : α → β} {e : Ending α}

theorem map_eq_ok {b : β} : e.map f = .ok b ↔ ∃ a, e = .ok a ∧ f a = b := by
  cases e <;> simp [map]

theorem map_eq_failed {error : PoolError} : e.map f = .failed error ↔ e = .failed error := by
  cases e <;> simp [map]

theorem map_eq_panicked : e.map f = .panicked ↔ e = .panicked := by
  cases e <;> simp [map]

end Map

end Ending

end SurfaceReuse
