import SurfaceReuse.Proofs.Desk

set_option autoImplicit false

/-!
How hooks, slots and submissions in progress belong together. While a pool is not poisoned, an id
is tracked exactly as long as one hook for it was not called; that hook's submission is the only
one that finds the slot empty.
-/

namespace SurfaceReuse.Desk

variable {φ : Type} {m : Moment φ} {d d' : Desk}

/-- What every desk has, whatever foreign code did. -/
structure Tied (d : Desk) : Prop where
  number_le : ∀ h ∈ d.hooks, h.number ≤ d.registrations
  numbers : ∀ h ∈ d.hooks, ∀ h' ∈ d.hooks, h.number = h'.number → h = h'
  nodup : d.hooks.Nodup
  booking_le : ∀ b ∈ d.bookings, b.hook ≤ d.registrations
  tracked : d.poisoned = false → ∀ id, d.slot id ≠ none ↔ ∃ h ∈ d.hooks, h.id = id
  apart : ∀ h ∈ d.hooks, ∀ h' ∈ d.hooks, h.id = h'.id → h = h'
  own : ∀ b ∈ d.bookings, ∀ h ∈ d.hooks, h.number = b.hook → h.id = b.id
  /-- A submission whose hook was not called finds its slot empty. -/
  empty : d.poisoned = false → ∀ b ∈ d.bookings, ∀ h ∈ d.hooks, h.number = b.hook →
    d.slot b.id = some .reserved
  /-- Of two submissions in progress for one id, the hook of the outer one was called. -/
  outer : d.bookings.Pairwise fun b b' => b.id = b'.id → ∀ h ∈ d.hooks, h.number ≠ b'.hook

theorem Tied.leave (tied : d.Tied) {b : Booking} {rest : List Booking}
    (hb : d.bookings = b :: rest) : { d with bookings := rest }.Tied where
  number_le := tied.number_le
  numbers := tied.numbers
  nodup := tied.nodup
  booking_le b' hm := tied.booking_le b' (hb ▸ List.mem_cons_of_mem b hm)
  tracked := tied.tracked
  apart := tied.apart
  own b' hm := tied.own b' (hb ▸ List.mem_cons_of_mem b hm)
  empty ho b' hm := tied.empty ho b' (hb ▸ List.mem_cons_of_mem b hm)
  outer := List.Pairwise.of_cons (hb ▸ tied.outer)

theorem Tied.poisoned (tied : d.Tied) (slot : BufferId → Option (Slot Nat)) :
    { d with poisoned := true, slot }.Tied :=
  ⟨tied.number_le, tied.numbers, tied.nodup, tied.booking_le, fun h => absurd h (by simp),
    tied.apart, tied.own, fun h => absurd h (by simp), tied.outer⟩

/-- What tells the old hooks apart tells them apart from a new one that has it for itself. -/
theorem apart_cons {β : Type} {key : Hook → β} {h : Hook} {hooks : List Hook}
    (hnew : ∀ k ∈ hooks, key k ≠ key h)
    (hold : ∀ k ∈ hooks, ∀ k' ∈ hooks, key k = key k' → k = k') :
    ∀ k ∈ h :: hooks, ∀ k' ∈ h :: hooks, key k = key k' → k = k' := by
  intro k hk k' hk' he
  rcases List.mem_cons.mp hk with rfl | hk₁ <;> rcases List.mem_cons.mp hk' with rfl | hk₂
  · rfl
  · exact absurd he.symm (hnew k' hk₂)
  · exact absurd he (hnew k hk₁)
  · exact hold k hk₁ k' hk₂ he

theorem Tied.accept (tied : d.Tied) (h : Hook) (serial : Nat) (ho : d.poisoned = false)
    (hs : d.slot h.id = none) (hn : h.number = d.registrations + 1) :
    { d with
      slot := Function.update d.slot h.id (some .reserved)
      bookings := ⟨serial, h.id, h.number⟩ :: d.bookings
      hooks := h :: d.hooks
      registrations := d.registrations + 1 }.Tied := by
  have hfree : ∀ k ∈ d.hooks, k.id ≠ h.id := fun k hk he =>
    (tied.tracked ho h.id).mpr ⟨k, hk, he⟩ hs
  have hold : ∀ k ∈ d.hooks, k.number ≠ h.number := fun k hk => by
    have := tied.number_le k hk
    omega
  have hbook : ∀ b ∈ d.bookings, h.number ≠ b.hook := fun b hm => by
    have := tied.booking_le b hm
    omega
  constructor
  case number_le =>
    intro k hk
    rcases List.mem_cons.mp hk with rfl | hk
    · exact Nat.le_of_eq hn
    · exact Nat.le_succ_of_le (tied.number_le k hk)
  case numbers => exact apart_cons hold tied.numbers
  case nodup =>
    exact List.nodup_cons.mpr ⟨fun hm => hfree h hm rfl, tied.nodup⟩
  case booking_le =>
    intro b hm
    rcases List.mem_cons.mp hm with rfl | hm
    · exact Nat.le_of_eq hn
    · exact Nat.le_succ_of_le (tied.booking_le b hm)
  case tracked =>
    intro _ id
    dsimp only
    rw [Function.update_apply]
    by_cases hid : id = h.id
    · rw [if_pos hid]
      exact iff_of_true (by simp) ⟨h, List.mem_cons_self, hid.symm⟩
    · rw [if_neg hid, tied.tracked ho id]
      constructor
      · rintro ⟨k, hk, he⟩
        exact ⟨k, List.mem_cons_of_mem h hk, he⟩
      · rintro ⟨k, hk, he⟩
        rcases List.mem_cons.mp hk with rfl | hk
        · exact absurd he.symm hid
        · exact ⟨k, hk, he⟩
  case apart => exact apart_cons hfree tied.apart
  case own =>
    intro b hm k hk he
    rcases List.mem_cons.mp hm with rfl | hm₁ <;> rcases List.mem_cons.mp hk with rfl | hk₁
    · rfl
    · exact absurd he (hold k hk₁)
    · exact absurd he (hbook b hm₁)
    · exact tied.own b hm₁ k hk₁ he
  case empty =>
    intro _ b hm k hk he
    dsimp only
    rw [Function.update_apply]
    split
    · rfl
    · rename_i hid
      rcases List.mem_cons.mp hm with rfl | hm₁ <;> rcases List.mem_cons.mp hk with rfl | hk₁
      · exact absurd rfl hid
      · exact absurd rfl hid
      · exact absurd he (hbook b hm₁)
      · exact tied.empty ho b hm₁ k hk₁ he
  case outer =>
    refine List.pairwise_cons.mpr ⟨fun b hm hid k hk he => ?_, ?_⟩
    · rcases List.mem_cons.mp hk with rfl | hk
      · exact hbook b hm he
      · have hr := tied.empty ho b hm k hk he
        rw [← hid, hs] at hr
        exact absurd hr (by simp)
    · refine tied.outer.imp_of_mem fun _ hm' hq hid k hk => ?_
      rcases List.mem_cons.mp hk with rfl | hk
      · exact hbook _ hm'
      · exact hq hid k hk

theorem Tied.park (tied : d.Tied) {b : Booking} {rest : List Booking}
    (hb : d.bookings = b :: rest) (hs : d.slot b.id ≠ none) :
    { d with
      slot := Function.update d.slot b.id (some (.parked b.serial))
      bookings := rest }.Tied := by
  have hrest := tied.leave hb
  refine ⟨hrest.number_le, hrest.numbers, hrest.nodup, hrest.booking_le, ?_, hrest.apart,
    hrest.own, ?_, hrest.outer⟩
  · intro ho id
    dsimp only
    rw [← tied.tracked ho id, Function.update_apply]
    split
    · rename_i hid
      rw [hid]
      exact iff_of_true (by simp) hs
    · rfl
  · intro ho b' hm h hh he
    have houter := tied.outer
    rw [hb] at houter
    have hid : b'.id ≠ b.id := fun hid =>
      (List.pairwise_cons.mp houter).1 b' hm hid.symm h hh he
    dsimp only
    rw [Function.update_of_ne hid]
    exact hrest.empty ho b' hm h hh he

theorem Tied.called (tied : d.Tied) {h : Hook} (hm : h ∈ d.hooks) :
    { d with slot := Function.update d.slot h.id none, hooks := d.hooks.erase h }.Tied := by
  have hsub : ∀ k ∈ d.hooks.erase h, k ∈ d.hooks := fun k hk => List.mem_of_mem_erase hk
  have hne : ∀ k ∈ d.hooks.erase h, k.id ≠ h.id := fun k hk he => by
    obtain rfl := tied.apart k (hsub k hk) h hm he
    exact tied.nodup.not_mem_erase hk
  refine ⟨fun k hk => tied.number_le k (hsub k hk),
    fun k hk k' hk' => tied.numbers k (hsub k hk) k' (hsub k' hk'), tied.nodup.erase h,
    tied.booking_le, ?_, fun k hk k' hk' => tied.apart k (hsub k hk) k' (hsub k' hk'),
    fun b hb k hk => tied.own b hb k (hsub k hk), ?_,
    tied.outer.imp fun hq hid k hk => hq hid k (hsub k hk)⟩
  · intro ho id
    dsimp only
    rw [Function.update_apply]
    by_cases hid : id = h.id
    · rw [if_pos hid]
      exact iff_of_false (by simp) fun ⟨k, hk, he⟩ => hne k hk (he.trans hid)
    · rw [if_neg hid, tied.tracked ho id]
      constructor
      · rintro ⟨k, hk, he⟩
        refine ⟨k, (List.mem_erase_of_ne fun hkh => ?_).mpr hk, he⟩
        exact hid (he.symm.trans (congrArg Hook.id hkh))
      · rintro ⟨k, hk, he⟩
        exact ⟨k, hsub k hk, he⟩
  · intro ho b hb k hk he
    have hid : b.id ≠ h.id := by
      rw [← tied.own b hb k (hsub k hk) he]
      exact hne k hk
    dsimp only
    rw [Function.update_of_ne hid]
    exact tied.empty ho b hb k (hsub k hk) he

theorem Tied.step (tied : d.Tied) (h : Step m d d') : d'.Tied := by
  cases h with
  | quiet => exact tied
  | poison => exact tied.poisoned d.slot
  | accept h serial ho hs hn => exact tied.accept h serial ho hs hn
  | park b rest slot hm hcall ho hb hs => exact tied.park hb (by simp [hs])
  | recycle b rest ho hb => exact tied.leave hb
  | abandon b rest hp hb =>
    have := (tied.leave hb).poisoned (Function.update d.slot b.id none)
    rw [← hp] at this
    exact this
  | unwind b rest hp hb => exact tied.leave hb
  | signal h ho hm => exact tied.called hm
  | unheard h hp hm =>
    have := (tied.called hm).poisoned d.slot
    rw [← hp] at this
    exact this

/-- A slot that does not have what was put into the slot of `id` is the slot of another id. -/
theorem of_update {slot : BufferId → Option (Slot Nat)} {id k : BufferId}
    {v : Option (Slot Nat)} {x : Slot Nat} (h : Function.update slot id v k = some x)
    (hv : v ≠ some x) : k ≠ id ∧ slot k = some x := by
  rw [Function.update_apply] at h
  split at h
  · exact absurd h hv
  · rename_i hne
    exact ⟨hne, h⟩

/-- Every empty slot awaits the submission that it was reserved by. -/
def Awaited (d : Desk) : Prop :=
  ∀ id, d.slot id = some .reserved → ∃ b ∈ d.bookings, b.id = id ∧ ∃ h ∈ d.hooks, h.number = b.hook

/-- Without panics no submission leaves an empty slot behind. -/
theorem Awaited.step (awaited : d.Awaited) (tied : d.Tied) (ho : d.poisoned = false)
    (calm : m.Calm) (h : Step m d d') : d'.Awaited ∧ d'.poisoned = false := by
  cases h with
  | quiet => exact ⟨awaited, ho⟩
  | poison hp => exact absurd hp calm
  | accept h serial _ hs =>
    refine ⟨fun id hid => ?_, ho⟩
    dsimp only at hid ⊢
    rw [Function.update_apply] at hid
    split at hid
    · rename_i he
      exact ⟨_, List.mem_cons_self, he.symm, h, List.mem_cons_self, rfl⟩
    · obtain ⟨b, hb, he, k, hk, hn⟩ := awaited id hid
      exact ⟨b, List.mem_cons_of_mem _ hb, he, k, List.mem_cons_of_mem h hk, hn⟩
  | park b rest slot _ _ _ hb hs =>
    refine ⟨fun id hid => ?_, ho⟩
    obtain ⟨hne, hid⟩ := of_update hid (by simp)
    obtain ⟨b', hb', he, hk⟩ := awaited id hid
    rw [hb] at hb'
    rcases List.mem_cons.mp hb' with rfl | hb'
    · exact absurd he.symm hne
    · exact ⟨b', hb', he, hk⟩
  | recycle b rest _ hb hs =>
    refine ⟨fun id hid => ?_, ho⟩
    obtain ⟨b', hb', he, hk⟩ := awaited id hid
    rw [hb] at hb'
    rcases List.mem_cons.mp hb' with rfl | hb'
    · rw [he] at hs
      exact absurd (hs.symm.trans hid) (by simp)
    · exact ⟨b', hb', he, hk⟩
  | abandon b rest hp => exact absurd (ho.symm.trans hp) (by simp)
  | unwind b rest hp => exact absurd hp calm
  | signal h _ hm =>
    refine ⟨fun id hid => ?_, ho⟩
    obtain ⟨hne, hid⟩ := of_update hid (by simp)
    obtain ⟨b, hb, he, k, hk, hn⟩ := awaited id hid
    have hkh : k ≠ h := by
      rintro rfl
      exact hne (he.symm.trans (tied.own b hb k hk hn).symm)
    exact ⟨b, hb, he, k, (List.mem_erase_of_ne hkh).mpr hk, hn⟩
  | unheard h hp => exact absurd (ho.symm.trans hp) (by simp)

end SurfaceReuse.Desk
