import SurfaceReuse.System.Lemmas

set_option autoImplicit false

/-!
Bystanders: what of a process has nothing to do with what goes on inside a pool. Neither the pool's
state nor the calls in progress nor the device matters to it, so most moves leave it as it is.
-/

namespace SurfaceReuse

variable {φ : Type}

/-- Whether the move passes no surface from or to the caller, and has nothing to do with hooks. -/
def Move.isInternal : Move φ → Bool
  | .acquire _ | .registered | .unwind | .collect | .shrink | .report => true
  | .lastReport | .availableCount | .pendingCount | .cachedBytes | .isPending _ => true
  | .adjust _ | .reportUsage _ => true
  | _ => false

structure Bystander {β : Type} (view : System φ → β) : Prop where
  leave : ∀ (s : System φ) (o o' : OpenPool) (l : Locked φ), s.current = some o →
    o'.generation = o.generation → view (s.leave o' l) = view s
  calls : ∀ (s : System φ) (calls : List Call), view { s with calls } = view s
  device : ∀ (s : System φ) (device : Device φ), view { s with device } = view s
  journal : ∀ (s : System φ) (journal : Log.Journal), view { s with journal } = view s

namespace Bystander

variable {β : Type} {view : System φ → β} (hv : Bystander view)

include hv

theorem locked {α : Type} (s : System φ) (body : OpenPool → Locked φ → Ending α × Locked φ) :
    view (s.locked body).2 = view s := by
  rcases s.locked_cases body with ⟨-, hl⟩ | ⟨o, -, -, hl⟩ | ⟨o, ho, -, hl⟩
  · rw [hl]
  · rw [hl]
  · rw [hl]
    exact hv.leave s o _ _ ho rfl

theorem perform (s : System φ) (body : OpenPool → Locked φ → Ending Unit × Locked φ) :
    view (s.perform body).2 = view s :=
  hv.locked s body

theorem acquire [Allocator φ] (s : System φ) (size : Size) : view (s.acquire size).2 = view s := by
  have hl := hv.locked s fun _ l => l.obtain size
  unfold System.acquire
  split <;> rename_i heq <;> rw [heq] at hl
  · exact hl
  · exact (hv.calls _ _).trans hl
  · exact (hv.journal _ _).trans hl
  · exact hl

theorem abandon (s : System φ) (id : BufferId) (x : Surface) :
    view (s.abandon id x) = view s := by
  unfold System.abandon
  split
  · exact hv.device s _
  · rename_i o ho
    exact (hv.device _ _).trans ((hv.journal _ _).trans (hv.leave s o o _ ho rfl))

theorem registered (s : System φ) : view s.registered.2 = view s := by
  unfold System.registered
  split
  · rename_i x id n calls hc
    have hl := (hv.perform { s with calls } fun _ l => (.ok (), l.settle id x)).trans
      (hv.calls s calls)
    split
    · rename_i error t heq
      rw [heq] at hl
      exact (hv.abandon t id x).trans hl
    · exact hl
  · rfl

theorem unwind (s : System φ) : view s.unwind.2 = view s := by
  unfold System.unwind
  split
  · rename_i call calls hc
    exact (hv.device { s with calls } _).trans (hv.calls s calls)
  · rfl

theorem deliver (s : System φ) (h : Hook) : view (s.deliver h) = view s := by
  rcases s.deliver_cases h with ⟨-, hd⟩ | ⟨o, ho, -, ⟨-, hd⟩ | ⟨-, hd⟩⟩
  · rw [hd]
  · rw [hd]
    exact hv.journal s _
  · rw [hd]
    exact hv.leave s o o _ ho rfl

theorem step [Allocator φ] (s : System φ) (m : Move φ) (hm : m.isInternal = true) :
    view (s.step m).2 = view s := by
  cases m with
  | acquire size => exact hv.acquire s size
  | registered => exact hv.registered s
  | unwind => exact hv.unwind s
  | collect => exact hv.perform s _
  | shrink => exact hv.perform s _
  | report => exact hv.locked s fun _ l => (Ending.ok l.report.pool.lastReport, l.report)
  | lastReport | availableCount | pendingCount | cachedBytes | isPending id => rfl
  | adjust change => exact hv.device s _
  | reportUsage usage => exact hv.device s _
  | _ => exact absurd hm (by simp [Move.isInternal])

end Bystander

end SurfaceReuse
