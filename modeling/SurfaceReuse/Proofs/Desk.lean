import Mathlib.Data.List.Nodup
import Mathlib.Logic.Function.Basic
import SurfaceReuse.Proofs.Ownership

set_option autoImplicit false

/-!
The desk of a pool: what submissions and signals have to do with. Surfaces stand on it with their
serial numbers only, so whatever they say about themselves, a move does one of few things to it.
-/

namespace SurfaceReuse

/-- A submission between its two halves. -/
structure Booking where
  serial : Nat
  id : BufferId
  hook : Nat

def Call.booking? : Call → Option Booking
  | .flushing _ _ => none
  | .registering x id hook => some ⟨x.serial, id, hook⟩

@[ext] structure Desk where
  poisoned : Bool
  slot : BufferId → Option (Slot Nat)
  /-- The submissions in progress, the innermost first. -/
  bookings : List Booking
  /-- The hooks of the pool in use that were not called yet. -/
  hooks : List Hook
  registrations : Nat

variable {φ : Type}

def System.desk (s : System φ) : Desk where
  poisoned := s.current.any fun o => o.poisoned
  slot id := (s.current.bind fun o => o.pool.pending.get? id).map (Slot.map Surface.serial)
  bookings := s.calls.filterMap Call.booking?
  hooks := s.hooks.filter fun h => h.generation == s.opened
  registrations := s.registrations

/-- The surface was recycled by this move: it is the youngest idle surface now, or it ceased to
    exist because it was invalid or no room was left. -/
def Moment.Settled (m : Moment φ) (serial : Nat) : Prop :=
  ∃ o o' x, m.before.current = some o ∧ m.after.current = some o' ∧ x.serial = serial ∧
    (x.valid = true ∧ o.pool.isFull = false ∧ o'.pool.available = o.pool.available ++ [x] ∨
     (x.valid = false ∨ o.pool.isFull = true) ∧ o'.pool.available = o.pool.available ∧
       serial ∉ m.after.device.alive)

namespace Desk

/-- What a move can do to the desk. -/
inductive Step (m : Moment φ) : Desk → Desk → Prop where
  | quiet {d : Desk} (hr : m.registered? = none)
      (hc : ∀ n, m.called? = some n → n ≤ d.registrations ∧ ∀ h ∈ d.hooks, h.number ≠ n) :
      Step m d d
  | poison {d : Desk} (hp : m.reply = .panicked) (hr : m.registered? = none)
      (hc : m.called? = none) : Step m d { d with poisoned := true }
  | accept {d : Desk} (h : Hook) (serial : Nat) (ho : d.poisoned = false)
      (hs : d.slot h.id = none) (hn : h.number = d.registrations + 1)
      (hr : m.registered? = some (h, serial)) (hc : m.called? = none) :
      Step m d
        { d with
          slot := Function.update d.slot h.id (some .reserved)
          bookings := ⟨serial, h.id, h.number⟩ :: d.bookings
          hooks := h :: d.hooks
          registrations := d.registrations + 1 }
  /-- What the surface finds in the slot that it is put into is gone then. -/
  | park {d : Desk} (b : Booking) (rest : List Booking) (slot : Slot Nat)
      (hm : m.move = .registered)
      (hcall : ∃ x calls, m.before.calls = .registering x b.id b.hook :: calls)
      (ho : d.poisoned = false) (hb : d.bookings = b :: rest) (hs : d.slot b.id = some slot)
      (hgone : ∀ n, slot = .parked n → n ∉ m.after.device.alive)
      (hr : m.registered? = none) (hc : m.called? = none) :
      Step m d
        { d with
          slot := Function.update d.slot b.id (some (.parked b.serial))
          bookings := rest }
  | recycle {d : Desk} (b : Booking) (rest : List Booking) (ho : d.poisoned = false)
      (hb : d.bookings = b :: rest) (hs : d.slot b.id = none) (hset : m.Settled b.serial)
      (hr : m.registered? = none) (hc : m.called? = none) :
      Step m d { d with bookings := rest }
  | abandon {d : Desk} (b : Booking) (rest : List Booking) (hp : d.poisoned = true)
      (hb : d.bookings = b :: rest) (hgone : b.serial ∉ m.after.device.alive)
      (hgone' : ∀ n, d.slot b.id = some (.parked n) → n ∉ m.after.device.alive)
      (hr : m.registered? = none) (hc : m.called? = none) :
      Step m d { d with slot := Function.update d.slot b.id none, bookings := rest }
  | unwind {d : Desk} (b : Booking) (rest : List Booking) (hp : m.reply = .panicked)
      (hb : d.bookings = b :: rest) (hgone : b.serial ∉ m.after.device.alive)
      (hr : m.registered? = none) (hc : m.called? = none) :
      Step m d { d with bookings := rest }
  | signal {d : Desk} (h : Hook) (ho : d.poisoned = false) (hm : h ∈ d.hooks)
      (hset : ∀ n, d.slot h.id = some (.parked n) → m.Settled n)
      (hr : m.registered? = none) (hc : m.called? = some h.number) :
      Step m d
        { d with slot := Function.update d.slot h.id none, hooks := d.hooks.erase h }
  | unheard {d : Desk} (h : Hook) (hp : d.poisoned = true) (hm : h ∈ d.hooks)
      (hr : m.registered? = none) (hc : m.called? = some h.number) :
      Step m d { d with hooks := d.hooks.erase h }

end Desk

namespace System

variable (s : System φ)

theorem desk_leave (o : OpenPool) (l : Locked φ) :
    (s.leave o l).desk =
      { s.desk with
        poisoned := o.poisoned
        slot := fun id => (l.pool.pending.get? id).map (Slot.map Surface.serial) } := rfl

theorem desk_slot {o : OpenPool} (ho : s.current = some o) (id : BufferId) :
    s.desk.slot id = (o.pool.pending.get? id).map (Slot.map Surface.serial) := by
  unfold desk
  rw [ho]
  rfl

theorem desk_poisoned {o : OpenPool} (ho : s.current = some o) : s.desk.poisoned = o.poisoned := by
  unfold desk
  rw [ho]
  rfl

/-- A section that leaves the pending map alone leaves the desk alone, unless it panics. -/
theorem desk_locked {α : Type} (body : OpenPool → Locked φ → Ending α × Locked φ)
    (hb : ∀ (o : OpenPool) (l : Locked φ), (body o l).2.pool.pending = l.pool.pending) :
    (s.locked body).2.desk = s.desk ∨
    (s.locked body).1 = .ended .panicked ∧
      (s.locked body).2.desk = { s.desk with poisoned := true } := by
  rcases s.locked_cases body with ⟨-, hl⟩ | ⟨o, -, -, hl⟩ | ⟨o, ho, hp, hl⟩
  · exact .inl (by rw [hl])
  · exact .inl (by rw [hl])
  · have hd : (s.leave { o with poisoned := (body o (s.inside o)).1.isPanic }
        (body o (s.inside o)).2).desk =
          { s.desk with poisoned := (body o (s.inside o)).1.isPanic } := by
      rw [desk_leave, hb]
      exact Desk.ext rfl (funext fun id => (s.desk_slot ho id).symm) rfl rfl rfl
    rw [hl, hd]
    cases hr : (body o (s.inside o)).1 with
    | panicked => exact .inr ⟨rfl, rfl⟩
    | ok a =>
      refine .inl ?_
      rw [show (Ending.ok a).isPanic = s.desk.poisoned from
        (hp.symm.trans (s.desk_poisoned ho).symm)]
    | failed e =>
      refine .inl ?_
      rw [show (Ending.failed (α := α) e).isPanic = s.desk.poisoned from
        (hp.symm.trans (s.desk_poisoned ho).symm)]

theorem desk_perform (body : OpenPool → Locked φ → Ending Unit × Locked φ)
    (hb : ∀ (o : OpenPool) (l : Locked φ), (body o l).2.pool.pending = l.pool.pending) :
    (s.perform body).2.desk = s.desk ∨
    (s.perform body).1 = .panicked ∧
      (s.perform body).2.desk = { s.desk with poisoned := true } := by
  rcases s.desk_locked body hb with h | ⟨hr, h⟩
  · exact .inl h
  · exact .inr ⟨congrArg (Section.reply fun _ => Reply.done) hr, h⟩

theorem desk_acquire [Allocator φ] (size : Size) :
    (s.acquire size).2.desk = s.desk ∨
    (s.acquire size).1 = .panicked ∧
      (s.acquire size).2.desk = { s.desk with poisoned := true } := by
  have hl := s.desk_locked (fun _ l => l.obtain size) fun _ l => l.obtain_pending size
  unfold acquire
  split <;> rename_i heq <;> rw [heq] at hl
  · exact .inl (hl.resolve_right (by simp))
  · exact .inl (hl.resolve_right (by simp))
  · exact .inl (hl.resolve_right (by simp))
  · exact hl.imp_right fun h => ⟨rfl, h.2⟩

theorem desk_flushed (ok : Bool) : (s.flushed ok).2.desk = s.desk := by
  unfold flushed
  split
  · rename_i x cached calls hc
    have hd : ({ s with calls } : System φ).desk = s.desk := by
      unfold desk
      rw [hc]
      rfl
    have hl := ({ s with calls } : System φ).desk_locked
      (fun _ l => (Ending.ok (), l.countReused)) fun _ _ => rfl
    have hnot : (({ s with calls } : System φ).locked
        fun _ l => (Ending.ok (), l.countReused)).1 ≠ .ended .panicked := by
      rcases ({ s with calls } : System φ).locked_cases
        (fun _ l => (Ending.ok (), l.countReused)) with ⟨-, h⟩ | ⟨_, -, -, h⟩ | ⟨_, -, -, h⟩
      all_goals
        rw [h]
        simp
    have hp := (hl.resolve_right fun h => hnot h.1).trans hd
    dsimp only
    split
    · exact hd
    split
    · exact hd
    split
    · rename_i heq
      have := congrArg Prod.snd heq
      subst this
      exact hp
    · rename_i heq
      have := congrArg Prod.snd heq
      subst this
      exact hp
  · rfl

theorem desk_drop (serial : Nat) : (s.drop serial).2.desk = s.desk := by
  unfold drop
  split
  · rfl
  · rename_i x t ht
    obtain ⟨-, -, rfl⟩ := takeHeld_eq_some ht
    rfl

theorem desk_touch (serial : Nat) (change : Features → Features) :
    (s.touch serial change).desk = s.desk := by
  have hcalls : (s.touch serial change).desk.bookings = s.desk.bookings := by
    change (s.calls.map _).filterMap _ = s.calls.filterMap _
    rw [List.filterMap_map]
    congr
    funext c
    cases c with
    | flushing x cached => rfl
    | registering x id n =>
      exact congrArg (fun k => some (Booking.mk k id n)) (Surface.touch_serial serial change x)
  have hslot : (s.touch serial change).desk.slot = s.desk.slot := by
    funext id
    unfold desk touch
    cases s.current with
    | none => rfl
    | some o =>
      change ((o.pool.pending.map _).get? id).map _ = (o.pool.pending.get? id).map _
      unfold Pending.map
      rw [Pending.get?_mapSlots, Option.map_map]
      congr
      funext slot
      cases slot with
      | reserved => rfl
      | parked x => exact congrArg Slot.parked (Surface.touch_serial serial change x)
  have hpoisoned : (s.touch serial change).desk.poisoned = s.desk.poisoned := by
    unfold desk touch
    cases s.current <;> rfl
  exact Desk.ext hpoisoned hslot hcalls rfl rfl

theorem desk_slot_none {o : OpenPool} (ho : s.current = some o) {id : BufferId}
    (hc : o.pool.pending.contains id = false) : s.desk.slot id = none := by
  rw [s.desk_slot ho, Pending.get?_of_not_contains hc]
  rfl

theorem get?_of_slot {o : OpenPool} (ho : s.current = some o) {id : BufferId} :
    (s.desk.slot id = none → o.pool.pending.get? id = none) ∧
    (s.desk.slot id = some .reserved → o.pool.pending.get? id = some .reserved) ∧
    ∀ n, s.desk.slot id = some (.parked n) →
      ∃ x, o.pool.pending.get? id = some (.parked x) ∧ x.serial = n := by
  rw [s.desk_slot ho]
  cases o.pool.pending.get? id with
  | none => exact ⟨fun _ => rfl, fun h => absurd h (by simp), fun n h => absurd h (by simp)⟩
  | some slot =>
    cases slot with
    | reserved =>
      exact ⟨fun h => absurd h (by simp), fun _ => rfl, fun n h => absurd h (by simp [Slot.map])⟩
    | parked x =>
      exact ⟨fun h => absurd h (by simp), fun h => absurd h (by simp [Slot.map]),
        fun n h => ⟨x, rfl, Slot.parked.inj (Option.some.inj h)⟩⟩

theorem desk_registering {o : OpenPool} (ho : s.current = some o)
    (hgen : o.generation = s.opened) (x : Surface) (hc : o.pool.pending.contains x.id = false) :
    (s.registering o x).desk =
      { s.desk with
        slot := Function.update s.desk.slot x.id (some .reserved)
        bookings := ⟨x.serial, x.id, s.registrations + 1⟩ :: s.desk.bookings
        hooks := ⟨s.registrations + 1, o.generation, x.id⟩ :: s.desk.hooks
        registrations := s.registrations + 1 } := by
  refine Desk.ext (s.desk_poisoned ho).symm (funext fun k => ?_) rfl ?_ rfl
  · change ((o.pool.pending.reserve x.id).2.get? k).map _ =
      Function.update s.desk.slot x.id (some .reserved) k
    rw [Pending.get?_reserve, Function.update_apply, s.desk_slot ho,
      Pending.get?_of_not_contains hc]
    split <;> rfl
  · have hmine : (o.generation == s.opened) = true := by simpa using hgen
    exact List.filter_cons_of_pos (p := fun h : Hook => h.generation == s.opened) hmine

theorem settled_recycle [Allocator φ] {o : OpenPool} (ho : s.current = some o) (m : Move φ)
    (halive : s.device.alive.Nodup) (x : Surface) {l : Locked φ}
    (hpool : l.pool.available = o.pool.available ∧ l.pool.capacity = o.pool.capacity)
    (hdevice : l.device = s.device) {t : System φ}
    (ht : (s.step m).2 = t.leave o (l.recycle x)) : (s.moment m).Settled x.serial := by
  have hfull : l.pool.isFull = o.pool.isFull := by
    unfold Pool.isFull
    rw [hpool.1, hpool.2]
  refine ⟨o, { o with pool := (l.recycle x).pool }, x, ho, ?_, rfl, ?_⟩
  · exact congrArg System.current ht
  · rcases l.recycle_cases x with ⟨hv, hf, ha⟩ | ⟨hv, ha, hd⟩
    · exact .inl ⟨hv, hfull ▸ hf, ha.trans (by rw [hpool.1])⟩
    · refine .inr ⟨hfull ▸ hv, ha.trans hpool.1, ?_⟩
      have hdev : (s.step m).2.device = s.device.release x := by
        rw [ht, ← hdevice]
        exact hd
      change x.serial ∉ (s.step m).2.device.alive
      rw [hdev]
      exact halive.not_mem_erase

theorem desk_return {x : Surface} {id : BufferId} {n : Nat} {calls : List Call}
    (hc : s.calls = .registering x id n :: calls) :
    s.desk.bookings = ⟨x.serial, id, n⟩ :: calls.filterMap Call.booking? := by
  unfold desk
  rw [hc]
  rfl

theorem desk_erased {o : OpenPool} (ho : s.current = some o) (id : BufferId)
    {p : Pending Surface} (hp : ∀ k, p.get? k = if k = id then none else o.pool.pending.get? k) :
    (fun k => (p.get? k).map (Slot.map Surface.serial)) =
      Function.update s.desk.slot id none := by
  funext k
  rw [hp, Function.update_apply, s.desk_slot ho]
  split <;> rfl

theorem desk_park {o : OpenPool} (ho : s.current = some o) {id : BufferId} {slot : Slot Surface}
    (hs : o.pool.pending.get? id = some slot) (x : Surface) :
    (fun k => ((o.pool.pending.park id x).2.get? k).map (Slot.map Surface.serial)) =
      Function.update s.desk.slot id (some (.parked x.serial)) := by
  funext k
  rw [Pending.get?_park, Function.update_apply, s.desk_slot ho, hs]
  split <;> rfl

theorem desk_same {o : OpenPool} (ho : s.current = some o) {p : Pending Surface}
    (hp : p = o.pool.pending) :
    (fun k => (p.get? k).map (Slot.map Surface.serial)) = s.desk.slot := by
  funext k
  rw [hp, s.desk_slot ho]

theorem desk_uncalled (h : Hook) :
    ({ s with hooks := s.hooks.erase h } : System φ).desk =
      { s.desk with hooks := s.desk.hooks.erase h } :=
  Desk.ext rfl rfl rfl List.erase_filter.symm rfl

/-- A hook of an earlier pool is on no desk, and neither is another one with its number. -/
theorem desk_stale (numbered : s.Numbered) {h : Hook} (hm : h ∈ s.hooks)
    (hne : h.generation ≠ s.opened) :
    ({ s with hooks := s.hooks.erase h } : System φ).desk = s.desk ∧
      ∀ k ∈ s.desk.hooks, k.number ≠ h.number := by
  have hnot : h ∉ s.desk.hooks := by
    intro hmem
    exact hne (by simpa using (List.mem_filter.mp hmem).2)
  refine ⟨?_, fun k hk he => ?_⟩
  · rw [desk_uncalled, List.erase_of_not_mem hnot]
  · have hk' := (List.mem_filter.mp hk).1
    obtain rfl := List.inj_on_of_nodup_map numbered.nodup hk' hm he
    exact hnot hk

theorem desk_complete {o : OpenPool} (ho : s.current = some o) (h : Hook) :
    (({ s with hooks := s.hooks.erase h } : System φ).leave o
        ((s.inside o).complete h.id)).desk =
      { s.desk with
        slot := Function.update s.desk.slot h.id none
        hooks := s.desk.hooks.erase h } := by
  rw [desk_leave, desk_uncalled]
  exact Desk.ext (s.desk_poisoned ho).symm
    (s.desk_erased ho h.id fun k => Locked.complete_get? _ h.id k) rfl rfl rfl

variable [Allocator φ]

theorem desk_submit {o : OpenPool} (ho : s.current = some o) (hgen : o.generation = s.opened)
    (serial : Nat) :
    Desk.Step (s.moment (.submit serial)) s.desk (s.submit serial).2.desk := by
  rcases s.submit_cases serial with ⟨-, h⟩ | ⟨o', x, t, ho', ht, h⟩
  · rw [h]
    refine .quiet ?_ fun n hn => absurd hn (by simp [moment, Moment.called?])
    simp [moment, Moment.registered?, step, h]
  · obtain rfl : o = o' := Option.some.inj (ho.symm.trans ho')
    obtain ⟨-, hx, rfl⟩ := takeHeld_eq_some ht
    rcases h with ⟨-, h⟩ | ⟨-, -, h⟩ | ⟨hp, hc, h⟩
    · rw [h]
      refine .quiet ?_ fun n hn => absurd hn (by simp [moment, Moment.called?])
      simp [moment, Moment.registered?, step, h]
    · rw [h]
      refine .quiet ?_ fun n hn => absurd hn (by simp [moment, Moment.called?])
      simp [moment, Moment.registered?, step, h]
    · have hd := desk_registering
        ({ s with held := s.held.eraseP fun y => y.serial == serial } : System φ) ho hgen x hc
      rw [h, hd, hx]
      exact .accept ⟨s.registrations + 1, o.generation, x.id⟩ serial
        ((s.desk_poisoned ho).trans hp) (s.desk_slot_none ho hc) rfl
        (by simp [moment, Moment.registered?, step, h, registering])
        (by simp [moment, Moment.called?])

theorem desk_settle {o : OpenPool} (ho : s.current = some o) (hp : o.poisoned = false)
    (halive : s.device.alive.Nodup) {x : Surface} {id : BufferId} {n : Nat} {calls : List Call}
    (hc : s.calls = .registering x id n :: calls) {t : System φ}
    (ht : (s.step .registered).2 = t)
    (hset : t = ({ s with calls } : System φ).leave o ((s.inside o).settle id x)) :
    Desk.Step (s.moment .registered) s.desk t.desk := by
  have hr : (s.moment (.registered : Move φ)).registered? = none := rfl
  have hcalled : (s.moment (.registered : Move φ)).called? = none := rfl
  have hopen := (s.desk_poisoned ho).trans hp
  have hb := s.desk_return hc
  have hslot := s.desk_slot ho id
  rw [Locked.settle_eq] at hset
  cases hg : o.pool.pending.get? id with
  | none =>
    simp only [inside, hg] at hset
    have hd : t.desk = { s.desk with bookings := calls.filterMap Call.booking? } := by
      rw [hset, desk_leave]
      exact Desk.ext (s.desk_poisoned ho).symm
        (s.desk_same ho (Locked.recycle_pending _ x)) rfl rfl rfl
    rw [hg] at hslot
    rw [hd]
    exact .recycle ⟨x.serial, id, n⟩ _ hopen hb hslot
      (settled_recycle s ho _ halive x ⟨rfl, rfl⟩ rfl (ht.trans hset)) hr hcalled
  | some slot =>
    have hd : ∀ l : Locked φ, l.pool.pending = (o.pool.pending.park id x).2 →
        (({ s with calls } : System φ).leave o l).desk =
          { s.desk with
            slot := Function.update s.desk.slot id (some (.parked x.serial))
            bookings := calls.filterMap Call.booking? } := by
      intro l hl
      rw [desk_leave, hl]
      exact Desk.ext (s.desk_poisoned ho).symm (s.desk_park ho hg x) rfl rfl rfl
    rw [hg] at hslot
    cases slot with
    | reserved =>
      simp only [inside, hg] at hset
      rw [hset, hd _ rfl]
      exact .park ⟨x.serial, id, n⟩ _ .reserved rfl ⟨x, calls, hc⟩ hopen hb hslot
        (fun k hk => absurd hk (by simp)) hr hcalled
    | parked y =>
      simp only [inside, hg] at hset
      rw [hset, hd _ rfl]
      refine .park ⟨x.serial, id, n⟩ _ (.parked y.serial) rfl ⟨x, calls, hc⟩ hopen hb hslot
        (fun k hk => ?_) hr hcalled
      obtain rfl := Slot.parked.inj hk
      change y.serial ∉ (s.step .registered).2.device.alive
      rw [ht, hset]
      exact halive.not_mem_erase

theorem desk_abandon {o : OpenPool} (ho : s.current = some o) (hp : o.poisoned = true)
    (halive : s.device.alive.Nodup) {x : Surface} {id : BufferId} {n : Nat} {calls : List Call}
    (hc : s.calls = .registering x id n :: calls) {t : System φ}
    (ht : (s.step .registered).2 = t)
    (hset : t = ({ s with calls } : System φ).abandon id x) :
    Desk.Step (s.moment .registered) s.desk t.desk := by
  have hr : (s.moment (.registered : Move φ)).registered? = none := rfl
  have hcalled : (s.moment (.registered : Move φ)).called? = none := rfl
  have hpoisoned := (s.desk_poisoned ho).trans hp
  have hb := s.desk_return hc
  have hslot := s.desk_slot ho id
  let l := (s.inside o).forget id
  have hpending : (fun k => (l.pool.pending.get? k).map (Slot.map Surface.serial)) =
      Function.update s.desk.slot id none :=
    s.desk_erased ho id fun k => Locked.forget_get? _ id k
  have hdevice : t.device = l.device.release x := by
    rw [hset]
    unfold abandon
    rw [show ({ s with calls } : System φ).current = some o from ho]
    rfl
  have hl := (s.inside o).forget_alive id halive
  have hd : t.desk =
      { s.desk with
        slot := Function.update s.desk.slot id none
        bookings := calls.filterMap Call.booking? } := by
    rw [hset]
    unfold abandon
    rw [show ({ s with calls } : System φ).current = some o from ho]
    exact Desk.ext (s.desk_poisoned ho).symm hpending rfl rfl rfl
  rw [hd]
  refine .abandon ⟨x.serial, id, n⟩ _ hpoisoned hb ?_ (fun k hk => ?_) hr hcalled
  · change x.serial ∉ (s.step .registered).2.device.alive
    rw [ht, hdevice]
    exact hl.1.not_mem_erase
  · change k ∉ (s.step .registered).2.device.alive
    rw [ht, hdevice]
    obtain ⟨y, hg, rfl⟩ := (s.get?_of_slot ho).2.2 k hk
    exact fun hm => hl.2 y hg (List.mem_of_mem_erase hm)

theorem desk_registered {o : OpenPool} (ho : s.current = some o)
    (halive : s.device.alive.Nodup) :
    Desk.Step (s.moment .registered) s.desk s.registered.2.desk := by
  rcases s.registered_awaited with ⟨-, h⟩ | ⟨x, id, n, calls, hc⟩
  · rw [h]
    exact .quiet rfl fun n hn => absurd hn (by simp [moment, Moment.called?])
  rcases registered_cases hc ho with ⟨hp, h⟩ | ⟨hp, h⟩
  · exact s.desk_abandon ho hp halive hc rfl (congrArg Prod.snd h)
  · exact s.desk_settle ho hp halive hc rfl (congrArg Prod.snd h)

theorem desk_unwind (halive : s.device.alive.Nodup) :
    Desk.Step (s.moment .unwind) s.desk s.unwind.2.desk := by
  have hr : (s.moment (.unwind : Move φ)).registered? = none := rfl
  have hcalled : (s.moment (.unwind : Move φ)).called? = none := rfl
  match hc : s.calls with
  | [] =>
    have hu : s.unwind = (.refused, s) := by
      unfold unwind
      rw [hc]
    rw [hu]
    exact .quiet hr fun n hn => absurd hn (by simp [hcalled])
  | .flushing x cached :: calls =>
    have hu : s.unwind = (.panicked, ({ s with calls } : System φ).release x) := by
      unfold unwind
      rw [hc]
      rfl
    have hd : (({ s with calls } : System φ).release x).desk = s.desk := by
      refine Desk.ext rfl rfl ?_ rfl rfl
      unfold desk
      rw [hc]
      rfl
    rw [hu, hd]
    exact .quiet hr fun n hn => absurd hn (by simp [hcalled])
  | .registering x id n :: calls =>
    have hu : s.unwind = (.panicked, ({ s with calls } : System φ).release x) := by
      unfold unwind
      rw [hc]
      rfl
    rw [hu]
    refine .unwind ⟨x.serial, id, n⟩ _ (congrArg Prod.fst hu) (s.desk_return hc) ?_ hr hcalled
    change x.serial ∉ s.unwind.2.device.alive
    rw [hu]
    exact halive.not_mem_erase

theorem desk_fire {o : OpenPool} (ho : s.current = some o) (hgen : o.generation = s.opened)
    (halive : s.device.alive.Nodup) (numbered : s.Numbered) (hook : Nat) :
    Desk.Step (s.moment (.fire hook)) s.desk (s.fire hook).2.desk := by
  have hr : (s.moment (.fire hook)).registered? = none := rfl
  rcases s.fire_cases hook with h | ⟨h, hm, hn, hf⟩
  · rw [h]
    exact .quiet hr fun n hn => absurd hn (by simp [moment, Moment.called?, step, h])
  let t : System φ := { s with hooks := s.hooks.erase h }
  have hcalled : (s.moment (.fire hook)).called? = some h.number := by
    simp [moment, Moment.called?, step, hf, hn]
  have hstep : (s.fire hook).2 = t.deliver h := congrArg Prod.snd hf
  rcases t.deliver_cases h with ⟨hforeign, hd⟩ | ⟨o', ho', hg, hcases⟩
  · have hne : h.generation ≠ s.opened := fun he => hforeign o ho (hgen.trans he.symm)
    obtain ⟨hsame, hfree⟩ := s.desk_stale numbered hm hne
    rw [hstep, hd, hsame]
    refine .quiet hr fun n hn' => ?_
    obtain rfl : h.number = n := Option.some.inj (hcalled.symm.trans hn')
    exact ⟨numbered.number_le h hm, hfree⟩
  · obtain rfl : o = o' := Option.some.inj (ho.symm.trans ho')
    have hmine : h ∈ s.desk.hooks := List.mem_filter.mpr ⟨hm, by simpa using hg.symm.trans hgen⟩
    rcases hcases with ⟨hp, hd⟩ | ⟨hp, hd⟩
    · have hdesk : t.desk = { s.desk with hooks := s.desk.hooks.erase h } := s.desk_uncalled h
      rw [hstep, hd]
      change Desk.Step _ s.desk t.desk
      rw [hdesk]
      exact .unheard h ((s.desk_poisoned ho).trans hp) hmine hr hcalled
    · rw [hd] at hstep
      have hdesk : (s.fire hook).2.desk =
          { s.desk with
            slot := Function.update s.desk.slot h.id none
            hooks := s.desk.hooks.erase h } :=
        (congrArg desk hstep).trans (s.desk_complete ho h)
      rw [hdesk]
      refine .signal h ((s.desk_poisoned ho).trans hp) hmine (fun n hs => ?_) hr hcalled
      obtain ⟨x, hslot, rfl⟩ := (s.get?_of_slot ho).2.2 n hs
      rw [Locked.complete_eq] at hstep
      simp only [inside, hslot] at hstep
      exact settled_recycle s ho _ halive x ⟨rfl, rfl⟩ rfl hstep

theorem quiet_or_poison (m : Move φ) (hr : (s.moment m).registered? = none)
    (hc : (s.moment m).called? = none)
    (h : (s.step m).2.desk = s.desk ∨
      (s.step m).1 = .panicked ∧ (s.step m).2.desk = { s.desk with poisoned := true }) :
    Desk.Step (s.moment m) s.desk (s.step m).2.desk := by
  rcases h with h | ⟨hp, h⟩
  · rw [h]
    exact .quiet hr fun n hn => absurd hn (by simp [hc])
  · rw [h]
    exact .poison hp hr hc

theorem desk_step (sound : s.Sound) {o : OpenPool} (ho : s.current = some o) (m : Move φ)
    (stays : m.staysOpen = true) : Desk.Step (s.moment m) s.desk (s.step m).2.desk := by
  have hgen := sound.generation o ho
  have halive := sound.alive_nodup
  cases m with
  | openPool config => exact absurd stays (by simp [Move.staysOpen])
  | closePool => exact absurd stays (by simp [Move.staysOpen])
  | submit serial => exact s.desk_submit ho hgen serial
  | fire hook => exact s.desk_fire ho hgen halive sound.numbered hook
  | registered => exact s.desk_registered ho halive
  | unwind => exact s.desk_unwind halive
  | acquire size => exact s.quiet_or_poison _ rfl rfl (s.desk_acquire size)
  | flushed ok => exact s.quiet_or_poison _ rfl rfl (.inl (s.desk_flushed ok))
  | collect =>
    refine s.quiet_or_poison _ rfl rfl (s.desk_perform _ fun o l => ?_)
    exact l.collect_pending o.config.maxAge
  | shrink => exact s.quiet_or_poison _ rfl rfl (s.desk_perform _ fun _ l => l.shrink_pending)
  | report =>
    refine s.quiet_or_poison _ rfl rfl ?_
    rcases s.desk_locked (fun _ l => (Ending.ok l.report.pool.lastReport, l.report))
      fun _ _ => rfl with h | ⟨hr, h⟩
    · exact .inl h
    · exact .inr ⟨congrArg (Section.reply Reply.stats) hr, h⟩
  | drop serial => exact s.quiet_or_poison _ rfl rfl (.inl (s.desk_drop serial))
  | touch serial change =>
    exact s.quiet_or_poison _ rfl rfl (.inl (s.desk_touch serial change))
  | lastReport | availableCount | pendingCount | cachedBytes | isPending id =>
    exact s.quiet_or_poison _ rfl rfl (.inl rfl)
  | build features => exact s.quiet_or_poison _ rfl rfl (.inl rfl)
  | adjust change => exact s.quiet_or_poison _ rfl rfl (.inl rfl)
  | reportUsage usage => exact s.quiet_or_poison _ rfl rfl (.inl rfl)

end System

end SurfaceReuse
