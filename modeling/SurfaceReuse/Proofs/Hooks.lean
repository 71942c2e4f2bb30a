import SurfaceReuse.Proofs.Bystanders

set_option autoImplicit false

/-!
Hooks and the pools they belong to. Submissions give hooks out, calls use them up, and nothing
else in a process has to do with them.
-/

namespace SurfaceReuse.System

variable {φ : Type}

/-- What opening and closing pools and giving out and calling hooks is about. -/
def tickets (s : System φ) : Nat × Option Nat × List Hook × Nat :=
  (s.opened, s.current.map OpenPool.generation, s.hooks, s.registrations)

theorem tickets_bystander : Bystander (tickets (φ := φ)) where
  leave s o o' l ho hg := by
    unfold tickets
    rw [ho]
    exact congrArg (fun g => (s.opened, some g, s.hooks, s.registrations)) hg
  calls _ _ := rfl
  device _ _ := rfl
  journal _ _ := rfl

theorem tickets_flushed (s : System φ) (ok : Bool) : (s.flushed ok).2.tickets = s.tickets := by
  unfold flushed
  split
  · rename_i x cached calls hc
    have hl := tickets_bystander.perform ({ s with calls } : System φ) fun _ l =>
      (.ok (), l.countReused)
    dsimp only
    split
    · rfl
    split
    · rfl
    split <;> (rename_i heq; rw [heq] at hl; exact hl)
  · rfl

theorem tickets_drop (s : System φ) (serial : Nat) : (s.drop serial).2.tickets = s.tickets := by
  unfold drop
  split
  · rfl
  · rename_i x t ht
    obtain ⟨-, -, rfl⟩ := takeHeld_eq_some ht
    rfl

theorem tickets_touch (s : System φ) (serial : Nat) (change : Features → Features) :
    (s.touch serial change).tickets = s.tickets := by
  unfold touch tickets
  cases s.current <;> rfl

theorem tickets_step [Allocator φ] (s : System φ) (m : Move φ) (stays : m.staysOpen = true)
    (hsubmit : ∀ serial, m ≠ .submit serial) (hfire : ∀ hook, m ≠ .fire hook) :
    (s.step m).2.tickets = s.tickets := by
  cases m with
  | openPool config => exact absurd stays (by simp [Move.staysOpen])
  | closePool => exact absurd stays (by simp [Move.staysOpen])
  | flushed ok => exact s.tickets_flushed ok
  | submit serial => exact absurd rfl (hsubmit serial)
  | fire hook => exact absurd rfl (hfire hook)
  | drop serial => exact s.tickets_drop serial
  | build features => rfl
  | touch serial change => exact s.tickets_touch serial change
  | _ => exact tickets_bystander.step s _ rfl

theorem tickets_submit (s : System φ) (serial : Nat) :
    (s.submit serial).2.tickets = s.tickets ∨
    ∃ o id, s.current = some o ∧ (s.submit serial).2.tickets =
      (s.opened, s.current.map OpenPool.generation,
        ⟨s.registrations + 1, o.generation, id⟩ :: s.hooks, s.registrations + 1) := by
  rcases s.submit_cases serial with ⟨-, h⟩ | ⟨o, x, t, ho, ht, h⟩
  · exact .inl (by rw [h])
  · obtain ⟨-, -, rfl⟩ := takeHeld_eq_some ht
    rcases h with ⟨-, h⟩ | ⟨-, -, h⟩ | ⟨-, -, h⟩
    · exact .inl (by rw [h]; rfl)
    · exact .inl (by rw [h]; rfl)
    · exact .inr ⟨o, x.id, ho, by rw [h, ho]; rfl⟩

theorem tickets_fire (s : System φ) (hook : Nat) :
    (s.fire hook).2.tickets = s.tickets ∨
    ∃ h ∈ s.hooks, h.number = hook ∧ (s.fire hook).2.tickets =
      (s.opened, s.current.map OpenPool.generation, s.hooks.erase h, s.registrations) := by
  rcases s.fire_cases hook with hf | ⟨h, hm, hn, hf⟩
  · exact .inl (by rw [hf])
  · exact .inr ⟨h, hm, hn, by rw [hf]; exact tickets_bystander.deliver _ h⟩

/-- What a move does to hooks: nothing, or it gives out one or uses one up. -/
theorem tickets_cases [Allocator φ] (s : System φ) (m : Move φ) (stays : m.staysOpen = true) :
    (s.step m).2.tickets = s.tickets ∨
    (∃ o id, s.current = some o ∧ (s.step m).2.tickets =
      (s.opened, s.current.map OpenPool.generation,
        ⟨s.registrations + 1, o.generation, id⟩ :: s.hooks, s.registrations + 1)) ∨
    ∃ h ∈ s.hooks, (s.step m).2.tickets =
      (s.opened, s.current.map OpenPool.generation, s.hooks.erase h, s.registrations) := by
  by_cases hsubmit : ∃ serial, m = .submit serial
  · obtain ⟨serial, rfl⟩ := hsubmit
    rcases s.tickets_submit serial with h | ⟨o, id, ho, h⟩
    · exact .inl h
    · exact .inr (.inl ⟨o, id, ho, h⟩)
  by_cases hfire : ∃ hook, m = .fire hook
  · obtain ⟨hook, rfl⟩ := hfire
    rcases s.tickets_fire hook with h | ⟨hk, hm, -, h⟩
    · exact .inl h
    · exact .inr (.inr ⟨hk, hm, h⟩)
  · exact .inl (s.tickets_step m stays (fun serial h => hsubmit ⟨serial, h⟩)
      fun hook h => hfire ⟨hook, h⟩)

theorem generation_step [Allocator φ] (s : System φ) (m : Move φ) (stays : m.staysOpen = true) :
    (s.step m).2.opened = s.opened ∧
      (s.step m).2.current.map OpenPool.generation = s.current.map OpenPool.generation := by
  rcases s.tickets_cases m stays with h | ⟨o, id, -, h⟩ | ⟨k, -, h⟩
  all_goals exact ⟨congrArg Prod.fst h, congrArg (fun t => t.2.1) h⟩

/-- No two hooks have the same number, and the numbers of those to come are larger. -/
structure Numbered (s : System φ) : Prop where
  nodup : (s.hooks.map Hook.number).Nodup
  number_le : ∀ h ∈ s.hooks, h.number ≤ s.registrations
  generation_le : ∀ h ∈ s.hooks, h.generation ≤ s.opened

theorem Numbered.step [Allocator φ] {s : System φ} (h : s.Numbered)
    (hgen : ∀ o, s.current = some o → o.generation = s.opened) (m : Move φ)
    (stays : m.staysOpen = true) : (s.step m).2.Numbered := by
  rcases s.tickets_cases m stays with ht | ⟨o, id, ho, ht⟩ | ⟨k, hk, ht⟩
  all_goals
    have hopened : (s.step m).2.opened = _ := congrArg Prod.fst ht
    have hhooks : (s.step m).2.hooks = _ := congrArg (fun t => t.2.2.1) ht
    have hreg : (s.step m).2.registrations = _ := congrArg (fun t => t.2.2.2) ht
    dsimp only [tickets] at hopened hhooks hreg
  · refine ⟨?_, ?_, ?_⟩
    · rw [hhooks]
      exact h.nodup
    · rw [hhooks, hreg]
      exact h.number_le
    · rw [hhooks, hopened]
      exact h.generation_le
  · have hlt : ∀ k ∈ s.hooks, k.number < s.registrations + 1 := fun k hk =>
      Nat.lt_succ_of_le (h.number_le k hk)
    refine ⟨?_, ?_, ?_⟩
    · rw [hhooks, List.map_cons, List.nodup_cons]
      refine ⟨fun hm => ?_, h.nodup⟩
      obtain ⟨k, hk, he⟩ := List.mem_map.mp hm
      exact absurd he (Nat.ne_of_lt (hlt k hk))
    · rw [hhooks, hreg]
      intro k hk
      rcases List.mem_cons.mp hk with rfl | hk
      · exact Nat.le_refl _
      · exact Nat.le_of_lt (hlt k hk)
    · rw [hhooks, hopened]
      intro k hk
      rcases List.mem_cons.mp hk with rfl | hk
      · exact Nat.le_of_eq (hgen o ho)
      · exact h.generation_le k hk
  · have hsub := List.erase_sublist (a := k) (l := s.hooks)
    refine ⟨?_, ?_, ?_⟩
    · rw [hhooks]
      exact (hsub.map _).nodup h.nodup
    · rw [hhooks, hreg]
      exact fun k hk => h.number_le k (hsub.subset hk)
    · rw [hhooks, hopened]
      exact fun k hk => h.generation_le k (hsub.subset hk)

end SurfaceReuse.System
