import SurfaceReuse.Proofs.CacheBound

set_option autoImplicit false

/-!
The end of a pool. What it owns goes down with it and nothing else does. Its hooks may be called
for as long as the process runs, with other pools in use that give out the same ids again; none of
these calls has an effect.
-/

namespace SurfaceReuse

variable {φ : Type}

namespace System

variable {s t u : System φ}

/-- The process in which the pool in use is gone with all it owned. -/
def vacated (s : System φ) (journal : Log.Journal) : System φ :=
  { s with
    current := none
    journal
    device := s.device.releaseAll s.pooled }

/-- The state `u` comes later than the end of the pool that was in use in `s`. -/
structure Outlives (s u : System φ) : Prop where
  opened : s.opened ≤ u.opened
  registrations : s.registrations ≤ u.registrations
  later : u.current.isSome = true → s.opened < u.opened
  /-- Hooks with the old numbers are the old hooks. -/
  hooks : ∀ h ∈ u.hooks, h.number ≤ s.registrations → h ∈ s.hooks

variable [Allocator φ]

/-- A pool ends when there is no call in progress, and there may be a new one at once. -/
theorem ending_cases (s : System φ) {m : Move φ} (ends : m.staysOpen = false) :
    ((s.step m).1 ≠ .done ∧ (s.step m).2 = s) ∨
    ((s.step m).1 = .done ∧ s.calls = [] ∧ ∃ journal, (s.step m).2 = s.vacated journal ∨
      ∃ config, (s.step m).2 = s.reopened config journal) := by
  cases m with
  | openPool config =>
    rcases s.openPool_cases config with h | ⟨journal, hc, -, he⟩
    · exact .inl h
    · exact .inr ⟨congrArg Prod.fst he, hc, journal, .inr ⟨_, congrArg Prod.snd he⟩⟩
  | closePool =>
    change ((s.closePool).1 ≠ .done ∧ (s.closePool).2 = s) ∨
      ((s.closePool).1 = .done ∧ s.calls = [] ∧ ∃ journal, (s.closePool).2 = _ ∨
        ∃ config, (s.closePool).2 = _)
    unfold closePool
    split
    · rename_i h
      obtain ⟨journal, hc⟩ := s.close_eq
      exact .inr ⟨rfl, List.isEmpty_iff.mp (Bool.and_eq_true_iff.mp h).1, journal, .inl hc⟩
    · exact .inl ⟨by simp, rfl⟩
  | _ => exact absurd ends (by simp [Move.staysOpen])

theorem Outlives.ended (hopened : s.opened ≤ t.opened) (hreg : s.registrations ≤ t.registrations)
    (hhooks : ∀ h ∈ t.hooks, h.number ≤ s.registrations → h ∈ s.hooks) {m : Move φ}
    (ends : m.staysOpen = false) (ok : (t.step m).1 = .done) : s.Outlives (t.step m).2 := by
  rcases t.ending_cases ends with ⟨hne, -⟩ | ⟨-, -, journal, he | ⟨config, he⟩⟩
  · exact absurd ok hne
  · rw [he]
    exact ⟨hopened, hreg, fun h => absurd h (by simp [vacated]), hhooks⟩
  · rw [he]
    exact ⟨Nat.le_succ_of_le hopened, hreg, fun _ => Nat.lt_succ_of_le hopened, hhooks⟩

theorem Outlives.step_open (h : s.Outlives t) (m : Move φ) (stays : m.staysOpen = true) :
    s.Outlives (t.step m).2 := by
  obtain ⟨hopened, hgen⟩ := t.generation_step m stays
  have hsome : (t.step m).2.current.isSome = t.current.isSome := by
    rw [← Option.isSome_map, hgen, Option.isSome_map]
  have hlater : (t.step m).2.current.isSome = true → s.opened < (t.step m).2.opened := by
    rw [hsome, hopened]
    exact h.later
  rcases t.tickets_cases m stays with ht | ⟨o, id, ho, ht⟩ | ⟨k, hk, ht⟩
  all_goals
    have hhooks : (t.step m).2.hooks = _ := congrArg (fun t => t.2.2.1) ht
    have hreg : (t.step m).2.registrations = _ := congrArg (fun t => t.2.2.2) ht
    dsimp only [tickets] at hhooks hreg
    refine ⟨hopened ▸ h.opened, ?_, hlater, ?_⟩
  · exact hreg ▸ h.registrations
  · exact hhooks ▸ h.hooks
  · exact hreg ▸ Nat.le_succ_of_le h.registrations
  · rw [hhooks]
    intro k hk hle
    rcases List.mem_cons.mp hk with rfl | hk
    · exact absurd hle (Nat.not_le_of_lt (Nat.lt_succ_of_le h.registrations))
    · exact h.hooks k hk hle
  · exact hreg ▸ h.registrations
  · rw [hhooks]
    exact fun k hk => h.hooks k (List.mem_of_mem_erase hk)

theorem Outlives.step (h : s.Outlives t) (m : Move φ) : s.Outlives (t.step m).2 := by
  cases hs : m.staysOpen with
  | true => exact h.step_open m hs
  | false =>
    rcases t.ending_cases hs with ⟨-, he⟩ | ⟨ok, -⟩
    · exact he.symm ▸ h
    · exact .ended h.opened h.registrations h.hooks hs ok

theorem Outlives.run (h : s.Outlives t) (moves : List (Move φ)) : s.Outlives (t.run moves) := by
  induction moves generalizing t with
  | nil => exact h
  | cons m moves ih => exact ih (h.step m)

theorem Reachable.run (h : s.Reachable) (moves : List (Move φ)) : (s.run moves).Reachable := by
  induction moves generalizing s with
  | nil => exact h
  | cons m moves ih => exact ih (h.step m)

omit [Allocator φ] in
/-- A hook that was there when its pool ended has no effect any more. -/
theorem Outlives.fire (h : s.Outlives u) (sound : s.Sound) (sound' : u.Sound) {k : Hook}
    (hk : k ∈ s.hooks) : (u.fire k.number).2 = { u with hooks := u.hooks.erase k } := by
  by_cases hmem : k ∈ u.hooks
  · rw [fire_of_mem sound'.numbered hmem]
    rcases ({ u with hooks := u.hooks.erase k } : System φ).deliver_cases k with
      ⟨-, hd⟩ | ⟨o, ho, hgen, -⟩
    · exact hd
    · -- The pool in use would be the one of the hook.
      have hlater := h.later (by rw [show u.current = some o from ho]; rfl)
      have hold := sound.numbered.generation_le k hk
      have hcurrent := sound'.generation o ho
      omega
  · rw [List.erase_of_not_mem hmem]
    rcases u.fire_cases k.number with hf | ⟨k', hk', hn, -⟩
    · rw [hf]
    · have hold := h.hooks k' hk' (hn ▸ sound.numbered.number_le k hk)
      exact absurd (List.inj_on_of_nodup_map sound.numbered.nodup hold hk hn ▸ hk') hmem

/-- The end of a pool is the end of what it owns. -/
theorem Sound.alive_ended (sound : s.Sound) {m : Move φ} (ends : m.staysOpen = false)
    (ok : (s.step m).1 = .done) (n : Nat) :
    n ∈ (s.step m).2.device.alive ↔
      n ∈ s.device.alive ∧ n ∉ (s.available ++ s.parked).map Surface.serial := by
  have hdevice : (s.step m).2.device = s.device.releaseAll s.pooled := by
    rcases s.ending_cases ends with ⟨hne, -⟩ | ⟨-, -, journal, he | ⟨config, he⟩⟩
    · exact absurd ok hne
    · rw [he]
      rfl
    · rw [he]
      rfl
  rw [hdevice, ← s.pooled_eq]
  exact Device.mem_alive_releaseAll sound.alive_nodup _ n

theorem held_ended (s : System φ) {m : Move φ} (ends : m.staysOpen = false) :
    (s.step m).2.held = s.held := by
  rcases s.ending_cases ends with ⟨-, he⟩ | ⟨-, -, journal, he | ⟨config, he⟩⟩
  · exact congrArg System.held he
  · exact (congrArg System.held he).trans rfl
  · exact (congrArg System.held he).trans rfl

end System

/-- When a pool ends, exactly the idle surfaces and those that wait for their writes cease to exist,
    and the caller keeps what it holds. Whatever happens then, calling a hook that is left over
    does nothing but use it up. -/
theorem teardown_final [Allocator φ] {s : System φ} (h : s.Reachable) {m : Move φ}
    (ends : m.staysOpen = false) (ok : (s.step m).1 = .done) :
    (∀ n, n ∈ (s.step m).2.device.alive ↔
      n ∈ s.device.alive ∧ n ∉ (s.available ++ s.parked).map Surface.serial) ∧
    (∀ x ∈ s.available ++ s.parked, x.serial ∈ s.device.alive) ∧
    (s.step m).2.held = s.held ∧
    (∀ x ∈ s.held, x.serial ∈ (s.step m).2.device.alive) ∧
    ∀ (moves : List (Move φ)) (k : Hook), k ∈ s.hooks →
      let u := (s.step m).2.run moves
      (u.step (.fire k.number)).2 = { u with hooks := u.hooks.erase k } := by
  have hheld := s.held_ended ends
  have hlater : s.Outlives (s.step m).2 :=
    .ended (Nat.le_refl _) (Nat.le_refl _) (fun _ hk _ => hk) ends ok
  refine ⟨h.sound.alive_ended ends ok, fun x hx => ?_, hheld, fun x hx => ?_, fun moves k hk => ?_⟩
  · exact h.sound.mem_alive (System.mem_owned_of_pooled (s.pooled_eq ▸ hx))
  · exact (h.step m).sound.mem_alive (System.mem_owned_of_held (hheld ▸ hx))
  · exact (hlater.run moves).fire h.sound ((h.step m).run moves).sound hk

open Scenario in
/-- Surface 1 waits in a pool that ends, and surface 2 is the caller's. Surface 3 waits in the next
    pool under the same id when the hook of surface 1 is called. -/
theorem teardown_final_of_same_id :
    ∃ s : System Faults, s.Reachable ∧ (s.step .closePool).1 = .done ∧
      s.device.alive = [2, 1] ∧ (s.step .closePool).2.device.alive = [2] ∧
      (∀ x ∈ s.held, x.serial ∈ (s.step .closePool).2.device.alive) ∧
      let u := (s.step .closePool).2.run
        [.openPool none, .acquire ⟨8, 8⟩, .flushed true, .submit 3, .registered]
      u.parked.map (fun x => (x.serial, x.id)) = [(3, ⟨1⟩)] ∧
      (⟨1, 1, ⟨1⟩⟩ : Hook) ∈ u.hooks ∧
      (u.step (.fire 1)).2 = { u with hooks := u.hooks.erase ⟨1, 1, ⟨1⟩⟩ } := by
  have opened : Life (fun _ _ => True) _ _ := .opened none (.start ({} : Faults) {} {}) rfl
  have first := (opened.move (.acquire ⟨8, 8⟩) rfl trivial).move (.flushed true) rfl trivial
  have both := (first.move (.acquire ⟨8, 8⟩) rfl trivial).move (.flushed true) rfl trivial
  have life := (both.move (.submit 1) rfl trivial).move .registered rfl trivial
  obtain ⟨-, -, -, hheld, hooks⟩ := teardown_final life.reachable (m := .closePool) rfl rfl
  exact ⟨_, life.reachable, rfl, by decide, by decide, hheld, by decide, by decide,
    hooks _ ⟨1, 1, ⟨1⟩⟩ (by decide)⟩

end SurfaceReuse
