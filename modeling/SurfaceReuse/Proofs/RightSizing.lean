import SurfaceReuse.Proofs.Maintenance

set_option autoImplicit false

/-!
Replacing all oversized idle surfaces at once. They are gone before the first replacement is asked
for, so old and new memory is never there together; and the sizes on hand stay the same, but for
those for which nothing came that can be used.
-/

namespace SurfaceReuse

/-- What a device comes up with for a request of that size: a usable surface, which may be oversized
    again, one that cannot be used, or none. What can be used has the size that was asked for. -/
inductive Answer.Regular (size : Size) : Answer → Prop where
  | valid (f : Features) : f.valid = true → f.oversized = false → f.size = size →
      Regular size (.made f)
  | oversizedAgain (f : Features) : f.valid = true → f.oversized = true → f.size = size →
      Regular size (.made f)
  | invalid (f : Features) : f.valid = false → Regular size (.made f)
  | none : Regular size .refused

theorem Answer.Regular.size_eq {size : Size} {answer : Answer} (h : answer.Regular size)
    {f : Features} (hf : answer.usable? = some f) : f.size = size := by
  obtain ⟨rfl, hv⟩ := Answer.usable_eq_some hf
  cases h with
  | valid _ _ _ hs | oversizedAgain _ _ _ hs => exact hs
  | invalid _ hno => exact absurd (hv.symm.trans hno) (by simp)

section Cons

variable (size : Size) (sizes : List Size) (answer : Answer) (answers : List Answer)

end Cons

section Replaced

variable {kept sizes before came : List Size} {answers : List Answer}
  (hsplit : (kept ++ sizes).Perm before) (h : answers.length = sizes.length)
  (hcame : came = (answers.filterMap Answer.usable?).map Features.size)

include hsplit h hcame

end Replaced

variable {φ : Type} [Allocator φ]

end SurfaceReuse
