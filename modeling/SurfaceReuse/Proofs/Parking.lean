import SurfaceReuse.Proofs.Waiting
import SurfaceReuse.Scenario.Faults

set_option autoImplicit false

/-!
What the second half of a submission does. It should fill the slot that its first half reserved,
or recycle its surface when the slot is gone. But a slot does not know who reserved it: when its
completion was early and the id was reserved again meanwhile, a submission puts its surface into
the slot of another, and what was parked there is lost.
-/

namespace SurfaceReuse

variable {φ : Type}

/-- Between the two halves of a submission its hook was called, and a later submission for the
    same id was accepted that still waits for its own completion. -/
def Overtaken (past : List (Moment φ)) (id : BufferId) (hook : Nat) : Prop :=
  hook ∈ called past ∧ ∃ h serial, Outstanding past h serial ∧ h.id = id

theorem not_overtaken_of_called {past : List (Moment φ)}
    (h : ∀ r ∈ registered past, r.1.number ∈ called past) (id : BufferId) (hook : Nat) :
    ¬Overtaken past id hook := fun ⟨_, _, _, ⟨hr, hn⟩, _⟩ => hn (h _ hr)

/-- The second half fills the empty slot that belongs to this submission alone, or recycles the
    surface when the completion was early, whatever is tracked under the id by then. -/
def Moment.KeepsPromise (past : List (Moment φ)) (m : Moment φ) (x : Surface) (id : BufferId)
    (hook : Nat) : Prop :=
  ∃ o o', m.before.current = some o ∧ m.after.current = some o' ∧
    (hook ∉ called past ∧ (∀ h serial, Outstanding past h serial → h.id = id → h.number = hook) ∧
       o.pool.pending.get? id = some .reserved ∧ o'.pool.pending.get? id = some (.parked x) ∧
       m.after.device.alive = m.before.device.alive ∨
     hook ∈ called past ∧ m.Settled x.serial ∧ o'.pool.pending = o.pool.pending)

namespace Desk

variable {m : Moment φ} {d d' : Desk}

/-- A surface leaves its slot when a hook for the id is called, or when a submission puts another
    one in its place. -/
theorem Step.parked (hs : Step m d d') (ho : d.poisoned = false) {id : BufferId} {n : Nat}
    (hp : d.slot id = some (.parked n)) :
    d'.slot id = some (.parked n) ∨ (∃ h ∈ d.hooks, h.id = id ∧ m.called? = some h.number) ∨
      (m.move = .registered ∧
        ∃ x hook calls, m.before.calls = .registering x id hook :: calls) := by
  cases hs with
  | accept h serial _ hfree =>
    refine .inl ((Function.update_of_ne (fun he => ?_) _ _).trans hp)
    rw [he, hfree] at hp
    exact absurd hp (by simp)
  | park b rest slot hm hcall =>
    by_cases he : id = b.id
    · obtain ⟨x, calls, hc⟩ := hcall
      exact .inr (.inr ⟨hm, x, b.hook, calls, he ▸ hc⟩)
    · exact .inl ((Function.update_of_ne he _ _).trans hp)
  | abandon b rest hpoisoned => exact absurd (ho.symm.trans hpoisoned) (by simp)
  | signal h _ hm _ _ hc =>
    by_cases he : id = h.id
    · exact .inr (.inl ⟨h, hm, he.symm, hc⟩)
    · exact .inl ((Function.update_of_ne he _ _).trans hp)
  | unheard h hpoisoned => exact absurd (ho.symm.trans hpoisoned) (by simp)
  | _ => exact .inl hp

end Desk

namespace Life

variable [Allocator φ] {past : List (Moment φ)} {s : System φ}

theorem slot_of_registering (life : Life (fun _ m => m.Calm) past s) {x : Surface} {id : BufferId}
    {n : Nat} {calls : List Call} (hc : s.calls = .registering x id n :: calls) :
    (n ∉ called past ∧ s.desk.slot id = some .reserved ∧
      ∀ h serial, Outstanding past h serial → h.id = id → h.number = n) ∨
    (n ∈ called past ∧ s.desk.slot id = none ∧ ¬Overtaken past id n) ∨
    (Overtaken past id n ∧ ∃ k, s.desk.slot id = some (.parked k)) := by
  obtain ⟨awaited, hopen⟩ := life.awaited
  have hb := s.desk_return hc
  have hmem : (⟨x.serial, id, n⟩ : Booking) ∈ s.desk.bookings := hb ▸ List.mem_cons_self
  by_cases hn : n ∈ called past
  · by_cases hover : ∃ h serial, Outstanding past h serial ∧ h.id = id
    · refine .inr (.inr ⟨⟨hn, hover⟩, ?_⟩)
      have hsome := (life.tracked_iff id).mpr hover
      cases hslot : s.desk.slot id with
      | none => exact absurd hslot hsome
      | some slot =>
        cases slot with
        | parked k => exact ⟨k, rfl⟩
        | reserved =>
          -- an empty slot awaits a submission whose hook was not called: an outer one
          obtain ⟨b, hbm, hbid, k, hk, hkn⟩ := awaited id hslot
          have houter := life.tied.outer
          rw [hb] at hbm houter
          rcases List.mem_cons.mp hbm with rfl | hbm
          · exact absurd (hkn ▸ hn) (life.ledger.uncalled k hk)
          · exact absurd hkn ((List.pairwise_cons.mp houter).1 b hbm hbid.symm k hk)
    · refine .inr (.inl ⟨hn, ?_, fun ho => hover ho.2⟩)
      by_contra hsome
      exact hover ((life.tracked_iff id).mp hsome)
  · obtain ⟨k, hr, hid, rfl⟩ := life.ledger.booked _ hmem
    have hk := (life.ledger.given k _ hr).resolve_right hn
    refine .inl ⟨hn, life.tied.empty hopen _ hmem k hk rfl, fun h serial hout he => ?_⟩
    rw [(life.outstanding_apart hout ⟨hr, hn⟩ (he.trans hid.symm)).1]

theorem registered_eq (life : Life (fun _ m => m.Calm) past s) {x : Surface} {id : BufferId}
    {n : Nat} {calls : List Call} (hc : s.calls = .registering x id n :: calls) {o : OpenPool}
    (ho : s.current = some o) :
    (s.step .registered).2 = ({ s with calls } : System φ).leave o ((s.inside o).settle id x) := by
  have hopen := (s.desk_poisoned ho).symm.trans life.awaited.2
  rcases System.registered_cases hc ho with ⟨hp, -⟩ | ⟨-, h⟩
  · exact absurd (hopen.symm.trans hp) (by simp)
  · exact congrArg Prod.snd h

/-- A submission that comes too late takes the place of a surface that then ceases to exist. -/
theorem displaces (life : Life (fun _ m => m.Calm) past s) {x : Surface} {id : BufferId}
    {n : Nat} {calls : List Call} (hc : s.calls = .registering x id n :: calls)
    (hover : Overtaken past id n) :
    ∃ o o' y, s.current = some o ∧ (s.step .registered).2.current = some o' ∧
      o.pool.pending.get? id = some (.parked y) ∧ o'.pool.pending.get? id = some (.parked x) ∧
      y ∈ s.parked ∧ y.serial ≠ x.serial ∧ y.serial ∉ (s.step .registered).2.device.alive := by
  obtain ⟨o, ho⟩ := life.current
  have hstep := life.registered_eq hc ho
  have hslot : ∃ k, s.desk.slot id = some (.parked k) := by
    rcases life.slot_of_registering hc with ⟨hn, -⟩ | ⟨-, -, hno⟩ | ⟨-, hk⟩
    · exact absurd hover.1 hn
    · exact absurd hover hno
    · exact hk
  obtain ⟨k, hk⟩ := hslot
  obtain ⟨y, hg, -⟩ := (s.get?_of_slot ho).2.2 k hk
  have hparked : y ∈ s.parked := by
    unfold System.parked
    rw [ho]
    exact (Pending.mem_values_iff _ _).mpr ⟨id, hg⟩
  rw [Locked.settle_eq] at hstep
  simp only [System.inside, hg] at hstep
  refine ⟨o, { o with pool := { o.pool with pending := (o.pool.pending.park id x).2 } }, y, ho,
    congrArg System.current hstep, hg, ?_, hparked, ?_, ?_⟩
  · change (o.pool.pending.park id x).2.get? id = _
    rw [Pending.get?_park, if_pos rfl, hg]
    rfl
  · exact (life.sound.call_apart (hc ▸ List.mem_cons_self) hparked).symm
  · rw [hstep]
    exact life.sound.alive_nodup.not_mem_erase

theorem keepsPromise (life : Life (fun _ m => m.Calm) past s) {x : Surface} {id : BufferId}
    {n : Nat} {calls : List Call} (hc : s.calls = .registering x id n :: calls)
    (hnot : ¬Overtaken past id n) : (s.moment .registered).KeepsPromise past x id n := by
  obtain ⟨o, ho⟩ := life.current
  have hstep := life.registered_eq hc ho
  rw [Locked.settle_eq] at hstep
  rcases life.slot_of_registering hc with ⟨hn, hslot, howner⟩ | ⟨hn, hslot, -⟩ | ⟨hover, -⟩
  · have hg := (s.get?_of_slot ho).2.1 hslot
    simp only [System.inside, hg] at hstep
    refine ⟨o, { o with pool := { o.pool with pending := (o.pool.pending.park id x).2 } }, ho,
      congrArg System.current hstep, .inl ⟨hn, howner, hg, ?_, ?_⟩⟩
    · change (o.pool.pending.park id x).2.get? id = _
      rw [Pending.get?_park, if_pos rfl, hg]
      rfl
    · exact congrArg (fun t => t.device.alive) hstep
  · have hg := (s.get?_of_slot ho).1 hslot
    simp only [System.inside, hg] at hstep
    refine ⟨o, { o with pool := (Locked.recycle ⟨o.pool, s.device, s.journal⟩ x).pool }, ho,
      congrArg System.current hstep, .inr ⟨hn, ?_, Locked.recycle_pending _ x⟩⟩
    exact System.settled_recycle s ho _ life.sound.alive_nodup x ⟨rfl, rfl⟩ rfl hstep
  · exact absurd hover hnot

end Life

/-- A submission keeps its promise if and only if it was not overtaken; if it was, it replaces the
    surface of another one, which is gone then. Apart from that, a surface leaves its slot by a
    call of a hook for its id alone. -/
theorem promise_kept_iff_not_overtaken [Allocator φ] {past : List (Moment φ)} {s : System φ}
    (life : Life (fun _ m => m.Calm) past s) :
    (∀ x id hook calls, s.calls = .registering x id hook :: calls →
      ((s.moment .registered).KeepsPromise past x id hook ↔ ¬Overtaken past id hook) ∧
      (Overtaken past id hook → ∃ y ∈ s.parked, y.serial ≠ x.serial ∧
        y.serial ∉ (s.step .registered).2.device.alive)) ∧
    ∀ m : Move φ, m.staysOpen = true → ∀ id n, s.desk.slot id = some (.parked n) →
      (s.step m).2.desk.slot id = some (.parked n) ∨
      (∃ h serial, Outstanding past h serial ∧ h.id = id ∧ m = .fire h.number) ∨
      (m = .registered ∧ ∃ x hook calls, s.calls = .registering x id hook :: calls ∧
        Overtaken past id hook) := by
  refine ⟨fun x id hook calls hc => ⟨⟨?_, life.keepsPromise hc⟩, fun hover => ?_⟩,
    fun m stays id n hp => ?_⟩
  · rintro ⟨o, o', ho, ho', hkept⟩ hover
    obtain ⟨o₁, o₁', y, ho₁, ho₁', hy, hx, -, hne, -⟩ := life.displaces hc hover
    obtain rfl : o = o₁ := Option.some.inj (ho.symm.trans ho₁)
    obtain rfl : o' = o₁' := Option.some.inj (ho'.symm.trans ho₁')
    rcases hkept with ⟨hn, -⟩ | ⟨-, -, hsame⟩
    · exact hn hover.1
    · rw [hsame, hy] at hx
      exact hne (congrArg Surface.serial (Slot.parked.inj (Option.some.inj hx)))
  · obtain ⟨-, -, y, -, -, -, -, hparked, hne, hgone⟩ := life.displaces hc hover
    exact ⟨y, hparked, hne, hgone⟩
  · rcases (life.desk_step m stays).parked life.awaited.2 hp with hp' | ⟨h, hh, hid, hcall⟩ |
      ⟨hm, x, hook, calls, hc⟩
    · exact .inl hp'
    · obtain ⟨serial, hr⟩ := life.ledger.taken h hh
      exact .inr (.inl ⟨h, serial, life.ledger.outstanding_iff.mpr ⟨hr, hh⟩, hid,
        System.fire_of_called hcall⟩)
    · refine .inr (.inr ⟨hm, x, hook, calls, hc, ?_⟩)
      rcases life.slot_of_registering hc with ⟨-, hr, -⟩ | ⟨-, hr, -⟩ | ⟨hover, -⟩
      · exact absurd (hr.symm.trans hp) (by simp)
      · exact absurd (hr.symm.trans hp) (by simp)
      · exact hover

open Scenario in
/-- A completion that came early, with nothing reserved since: the promise is kept. -/
theorem promise_kept_after_early_completion :
    ∃ (past : List (Moment Faults)) (s : System Faults) (x : Surface),
      Life (fun _ m => m.Calm) past s ∧ s.calls = [.registering x ⟨1⟩ 1] ∧ 1 ∈ called past ∧
      (s.moment .registered).KeepsPromise past x ⟨1⟩ 1 := by
  have opened : Life (fun _ (m : Moment Faults) => m.Calm) _ _ :=
    .opened none (.start {} {} {}) rfl
  have acquired := (opened.move (.acquire ⟨8, 8⟩) rfl nofun).move (.flushed true) rfl nofun
  have life := (acquired.move (.submit 1) rfl nofun).move (.fire 1) rfl nofun
  have hkept := ((promise_kept_iff_not_overtaken life).1 _ ⟨1⟩ 1 [] rfl).1.mpr
  exact ⟨_, _, _, life, rfl, by decide, hkept (not_overtaken_of_called (by decide) ⟨1⟩ 1)⟩

open Scenario in
/-- Two surfaces with one id: the hook of the first is called while the surface still takes it, and
    before that is over the second is submitted and parked. Then the first puts the second out of
    its slot, which ceases to exist though no hook of it was ever called. -/
theorem promise_broken_by_overtaking :
    ∃ (past : List (Moment Faults)) (s : System Faults) (x : Surface),
      Life (fun _ m => m.Calm) past s ∧ s.calls = [.registering x ⟨7⟩ 1] ∧
      s.parked.map Surface.serial = [2] ∧ called past = [1] ∧
      ¬(s.moment .registered).KeepsPromise past x ⟨7⟩ 1 ∧
      (s.step .registered).2.device.alive = [1] := by
  let twin : Features := { id := ⟨7⟩, size := ⟨8, 8⟩ }
  have opened : Life (fun _ (m : Moment Faults) => m.Calm) _ _ :=
    .opened none (.start {} {} {}) rfl
  have built := (opened.move (.build twin) rfl nofun).move (.build twin) rfl nofun
  have early := (built.move (.submit 1) rfl nofun).move (.fire 1) rfl nofun
  have life := (early.move (.submit 2) rfl nofun).move .registered rfl nofun
  refine ⟨_, _, ⟨twin, 1⟩, life, rfl, rfl, rfl, ?_, rfl⟩
  rintro ⟨o, o', ho, ho', ⟨hn, -⟩ | ⟨-, -, hsame⟩⟩
  · exact hn (by decide)
  · obtain rfl := Option.some.inj ho
    obtain rfl := Option.some.inj ho'
    exact absurd (congrArg (fun p => p.values.map Surface.serial) hsame) (by decide)

end SurfaceReuse
