import SurfaceReuse.Proofs.Bystanders

set_option autoImplicit false

/-!
The surfaces that the caller holds. Only the caller itself takes a surface out of its hands.
-/

namespace SurfaceReuse

variable {φ : Type}

namespace System

variable {s : System φ}

theorem held_bystander : Bystander (held (φ := φ)) where
  leave _ _ _ _ _ _ := rfl
  calls _ _ := rfl
  device _ _ := rfl
  journal _ _ := rfl

theorem held_flushed (s : System φ) (ok : Bool) : ∀ x ∈ s.held, x ∈ (s.flushed ok).2.held := by
  intro x hx
  unfold flushed
  split
  · rename_i y cached calls hc
    have hl := held_bystander.perform ({ s with calls } : System φ) fun _ l =>
      (.ok (), l.countReused)
    dsimp only
    split
    · exact hx
    split
    · exact List.mem_append_left _ hx
    split
    · rename_i t heq
      rw [heq] at hl
      have ht : t.held = s.held := hl
      exact List.mem_append_left _ (ht ▸ hx)
    · rename_i reply t hne heq
      rw [heq] at hl
      have ht : t.held = s.held := hl
      change x ∈ t.held
      exact ht ▸ hx
  · exact hx

theorem held_fire (s : System φ) (hook : Nat) : (s.fire hook).2.held = s.held := by
  rcases s.fire_cases hook with h | ⟨k, -, -, h⟩
  · rw [h]
  · rw [h]
    exact held_bystander.deliver { s with hooks := s.hooks.erase k } k

theorem mem_eraseP_serial {xs : List Surface} {n serial : Nat} (hne : n ≠ serial)
    (hn : n ∈ xs.map Surface.serial) :
    n ∈ (xs.eraseP fun y => y.serial == serial).map Surface.serial := by
  obtain ⟨x, hx, rfl⟩ := List.mem_map.mp hn
  refine List.mem_map_of_mem ((List.mem_eraseP_of_neg ?_).mpr hx)
  simpa using hne

/-- A surface leaves the caller by a submission or by being let go of. -/
theorem held_step [Allocator φ] (halive : s.device.alive.Nodup) (m : Move φ)
    (stays : m.staysOpen = true) {n : Nat} (hn : n ∈ s.held.map Surface.serial)
    (hsubmit : m ≠ .submit n) :
    n ∈ (s.step m).2.held.map Surface.serial ∨ n ∉ (s.step m).2.device.alive := by
  have hsame : (s.step m).2.held = s.held → n ∈ (s.step m).2.held.map Surface.serial :=
    fun h => h ▸ hn
  cases m with
  | openPool config => exact absurd stays (by simp [Move.staysOpen])
  | closePool => exact absurd stays (by simp [Move.staysOpen])
  | flushed ok =>
    obtain ⟨x, hx, rfl⟩ := List.mem_map.mp hn
    exact .inl (List.mem_map_of_mem (s.held_flushed ok x hx))
  | submit serial =>
    have hne : n ≠ serial := fun he => hsubmit (by rw [he])
    rcases s.submit_cases serial with ⟨-, h⟩ | ⟨o, x, t, -, ht, h⟩
    · exact .inl (hsame (congrArg (fun r => r.2.held) h))
    · obtain ⟨-, -, rfl⟩ := takeHeld_eq_some ht
      refine .inl ?_
      change n ∈ (s.submit serial).2.held.map Surface.serial
      rcases h with ⟨-, h⟩ | ⟨-, -, h⟩ | ⟨-, -, h⟩
      all_goals
        rw [h]
        exact mem_eraseP_serial hne hn
  | fire hook => exact .inl (hsame (s.held_fire hook))
  | drop serial =>
    change n ∈ (s.drop serial).2.held.map Surface.serial ∨ n ∉ (s.drop serial).2.device.alive
    unfold drop
    split
    · exact .inl hn
    · rename_i x t ht
      obtain ⟨-, hx, rfl⟩ := takeHeld_eq_some ht
      by_cases hne : n = serial
      · rw [hne, ← hx]
        exact .inr halive.not_mem_erase
      · exact .inl (mem_eraseP_serial hne hn)
  | build features =>
    refine .inl ?_
    change n ∈ (s.held ++ [_]).map Surface.serial
    rw [List.map_append]
    exact List.mem_append_left _ hn
  | touch serial change =>
    refine .inl ?_
    change n ∈ (s.held.map (Surface.touch serial change)).map Surface.serial
    rw [List.map_map]
    obtain ⟨x, hx, rfl⟩ := List.mem_map.mp hn
    exact List.mem_map.mpr ⟨x, hx, Surface.touch_serial serial change x⟩
  | _ => exact .inl (hsame (held_bystander.step s _ rfl))

end System

end SurfaceReuse
