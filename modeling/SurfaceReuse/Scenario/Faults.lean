import SurfaceReuse.Device

set_option autoImplicit false

/-!
An allocator with faults on order. Each order spoils the requests that come next; a panic goes
before refusals, and these before unusable surfaces.
-/

namespace SurfaceReuse.Scenario

structure Faults where
  panic : Bool := false
  refusals : Nat := 0
  /-- How many surfaces come out unusable. -/
  defects : Nat := 0
  /-- How many good surfaces come out oversized. -/
  oversized : Nat := 0

def Faults.answer (f : Faults) (size : Size) (id : BufferId) : Answer × Faults :=
  if f.panic then (.panicked, { f with panic := false })
  else if 0 < f.refusals then (.refused, { f with refusals := f.refusals - 1 })
  else if 0 < f.defects then
    (.made { id, size, valid := false }, { f with defects := f.defects - 1 })
  else
    (.made { id, size, oversized := decide (0 < f.oversized) },
      { f with oversized := f.oversized - 1 })

instance : Allocator Faults := ⟨Faults.answer⟩

/-- Only orders are out of the ordinary about the surfaces that are made. -/
theorem Faults.made_spec {a : Faults} {size : Size} {id : BufferId} {f : Features}
    (h : (Allocator.answer a size id).1 = .made f) : f.id = id ∧ f.size = size ∧ f.age = 0 := by
  change (a.answer size id).1 = _ at h
  unfold Faults.answer at h
  split at h
  · exact absurd h nofun
  split at h
  · exact absurd h nofun
  split at h
  · obtain rfl := Answer.made.inj h
    exact ⟨rfl, rfl, rfl⟩
  · obtain rfl := Answer.made.inj h
    exact ⟨rfl, rfl, rfl⟩

/-- No panic comes that was not ordered. -/
theorem Faults.calm {a : Faults} (h : a.panic = false) (size : Size) (id : BufferId) :
    (Allocator.answer a size id).1 ≠ .panicked ∧ (Allocator.answer a size id).2.panic = false := by
  change (a.answer size id).1 ≠ _ ∧ (a.answer size id).2.panic = false
  unfold Faults.answer
  rw [if_neg (by simp [h])]
  split
  · exact ⟨by simp, h⟩
  split
  · exact ⟨by simp, h⟩
  · exact ⟨by simp, h⟩

end SurfaceReuse.Scenario
