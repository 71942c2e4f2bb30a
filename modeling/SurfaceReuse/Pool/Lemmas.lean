import SurfaceReuse.Pending.Lemmas
import SurfaceReuse.Pool.Locked

set_option autoImplicit false

/-!
What the operations under the pool's lock come to, case by case. Only four of them touch the
pending map; the others leave it and the cap on idle surfaces as they are.
-/

namespace SurfaceReuse

namespace Locked

variable {φ : Type}

/-- The state after the device was asked for a surface, whatever it answered. -/
def requested [Allocator φ] (l : Locked φ) (size : Size) : Locked φ :=
  { l with
    pool := { l.pool with nextId := l.pool.nextId.next }
    device := (l.device.request size l.pool.nextId).2 }

theorem create_eq [Allocator φ] (l : Locked φ) (size : Size) :
    l.create size = match (l.device.request size l.pool.nextId).1 with
      | .refused => (.failed (.creationFailed size), l.requested size)
      | .panicked => (.panicked, l.requested size)
      | .made x =>
        if x.valid then
          (.ok x, { l.requested size with pool := (l.requested size).pool.countCreated }.log
            (.created l.pool.nextId size))
        else
          (.failed (.invalidSurface size),
            ((l.requested size).log (.newSurfaceInvalid l.pool.nextId size)).release x) := by
  have hr : l.device.request size l.pool.nextId =
    ((l.device.request size l.pool.nextId).1, (l.device.request size l.pool.nextId).2) := rfl
  unfold create
  simp only [Pool.issueId]
  rw [hr]
  cases (l.device.request size l.pool.nextId).1 <;> rfl

section Maintenance

variable [Allocator φ]

/-- Everything but the last report is done when the device panics. -/
theorem collect_eq (l : Locked φ) (maxAge : UInt32) :
    l.collect maxAge =
      ((l.evict maxAge).shrinkFirst.1,
        if (l.evict maxAge).shrinkFirst.1.isPanic then (l.evict maxAge).shrinkFirst.2
        else (l.evict maxAge).shrinkFirst.2.report) := by
  unfold collect
  cases (l.evict maxAge).shrinkFirst with
  | mk ending l' => cases ending <;> rfl

/-- The state in which the oversized idle surfaces are gone. -/
def withoutLarge (l : Locked φ) : Locked φ :=
  let kept := l.pool.available.filter fun s => !s.oversized
  { l with pool := { l.pool with available := kept } }.releaseAll
    (l.pool.available.filter fun s => s.oversized)

def largeSizes (l : Locked φ) : List Size :=
  (l.pool.available.filter fun s => s.oversized).map fun s => s.size

theorem shrink_eq (l : Locked φ) :
    l.shrink =
      ((l.withoutLarge.replenishAll l.largeSizes).1,
        if (l.withoutLarge.replenishAll l.largeSizes).1.isPanic then
          (l.withoutLarge.replenishAll l.largeSizes).2
        else (l.withoutLarge.replenishAll l.largeSizes).2.report) := by
  cases hr : l.withoutLarge.replenishAll l.largeSizes with
  | mk ending l' =>
    unfold withoutLarge largeSizes at hr
    unfold shrink
    dsimp only at hr ⊢
    rw [hr]
    cases ending <;> rfl

theorem replenish_eq (l : Locked φ) (size : Size) (note : PoolError → Size → Log.Event) :
    l.replenish size note = match (l.create size).1 with
      | .ok x => (.ok (), (l.create size).2.push x)
      | .failed error => (.ok (), (l.create size).2.log (note error size))
      | .panicked => (.panicked, (l.create size).2) := by
  unfold replenish
  cases l.create size with
  | mk ending l' => cases ending <;> rfl

theorem replenishAll_cons (l : Locked φ) (size : Size) (sizes : List Size) :
    l.replenishAll (size :: sizes) =
      if (l.replenish size .resizeFailed).1.isPanic then
        (.panicked, (l.replenish size .resizeFailed).2)
      else (l.replenish size .resizeFailed).2.replenishAll sizes := by
  rw [replenishAll]
  cases l.replenish size .resizeFailed with
  | mk ending l' => cases ending <;> rfl

end Maintenance

theorem take_eq_some {l l' : Locked φ} {size : Size} {x : Surface}
    (h : l.take? size = some (x, l')) :
    l.pool.available.find? (Surface.fits size) = some x ∧
      l' = { l with pool := { l.pool with
        available := l.pool.available.eraseP (Surface.fits size) } }.log (.matchFound x.id) := by
  simp only [take?, Pool.take?, Option.map_map, Option.map_eq_some_iff] at h
  obtain ⟨y, hy, he⟩ := h
  obtain ⟨rfl, rfl⟩ := Prod.mk.inj he
  exact ⟨hy, rfl⟩

end Locked

/-- A part of the pool's state that has nothing to do with its idle surfaces and its counters. -/
structure Pool.Fixture {β : Type} (view : Pool → β) : Prop where
  available : ∀ (p : Pool) (available : List Surface), view { p with available } = view p
  nextId : ∀ (p : Pool) (nextId : BufferId), view { p with nextId } = view p
  counters : ∀ (p : Pool) (created reused : Nat) (lastReport : Stats),
    view { p with created, reused, lastReport } = view p

namespace Pool

theorem isFull_eq_false_iff (p : Pool) : p.isFull = false ↔ p.available.length < p.capacity := by
  simp [isFull]

theorem pending_fixture : Fixture Pool.pending :=
  ⟨fun _ _ => rfl, fun _ _ => rfl, fun _ _ _ _ => rfl⟩

theorem capacity_fixture : Fixture Pool.capacity :=
  ⟨fun _ _ => rfl, fun _ _ => rfl, fun _ _ _ _ => rfl⟩

namespace Fixture

variable {φ β : Type} {view : Pool → β} (hv : Fixture view)

include hv

theorem report (l : Locked φ) : view l.report.pool = view l.pool :=
  hv.counters l.pool 0 0 _

theorem recycle (l : Locked φ) (x : Surface) : view (l.recycle x).pool = view l.pool := by
  unfold Locked.recycle
  split
  · dsimp only
    rw [hv.report]
    split
    · rfl
    · exact hv.available l.pool _
  · rfl

theorem evict (l : Locked φ) (maxAge : UInt32) : view (l.evict maxAge).pool = view l.pool := by
  unfold Locked.evict
  dsimp only
  split
  · exact hv.available l.pool _
  · exact hv.available l.pool _

variable [Allocator φ]

theorem create (l : Locked φ) (size : Size) : view (l.create size).2.pool = view l.pool := by
  have hid := hv.nextId l.pool l.pool.nextId.next
  rw [Locked.create_eq]
  split
  · exact hid
  · exact hid
  · split
    · exact (hv.counters (l.requested size).pool _ _ _).trans hid
    · exact hid

theorem obtain (l : Locked φ) (size : Size) : view (l.obtain size).2.pool = view l.pool := by
  unfold Locked.obtain
  split
  · rename_i x l' h
    obtain ⟨-, rfl⟩ := Locked.take_eq_some h
    exact hv.available l.pool _
  · exact hv.create l size

theorem replenish (l : Locked φ) (size : Size) (note : PoolError → Size → Log.Event) :
    view (l.replenish size note).2.pool = view l.pool := by
  rw [← hv.create l size, Locked.replenish_eq]
  split
  · exact hv.available (l.create size).2.pool _
  · rfl
  · rfl

theorem shrinkFirst (l : Locked φ) : view l.shrinkFirst.2.pool = view l.pool := by
  unfold Locked.shrinkFirst
  split
  · rfl
  · exact (hv.replenish _ _ _).trans (hv.available l.pool _)

theorem collect (l : Locked φ) (maxAge : UInt32) :
    view (l.collect maxAge).2.pool = view l.pool := by
  have h := (hv.shrinkFirst (l.evict maxAge)).trans (hv.evict l maxAge)
  rw [Locked.collect_eq]
  dsimp only
  split
  · exact h
  · exact (hv.report _).trans h

theorem replenishAll (l : Locked φ) (sizes : List Size) :
    view (l.replenishAll sizes).2.pool = view l.pool := by
  induction sizes generalizing l with
  | nil => rfl
  | cons size sizes ih =>
    have h := hv.replenish l size .resizeFailed
    rw [Locked.replenishAll_cons]
    split
    · exact h
    · exact (ih _).trans h

theorem shrink (l : Locked φ) : view l.shrink.2.pool = view l.pool := by
  have h := (hv.replenishAll l.withoutLarge l.largeSizes).trans (hv.available l.pool _)
  rw [Locked.shrink_eq]
  dsimp only
  split
  · exact h
  · exact (hv.report _).trans h

end Fixture

end Pool

namespace Locked

variable {φ : Type}

section Pending

def withPending (l : Locked φ) (pending : Pending Surface) : Locked φ :=
  { l with pool := { l.pool with pending } }

theorem complete_eq (l : Locked φ) (id : BufferId) :
    l.complete id = match l.pool.pending.get? id with
      | none => l.log (.completionUntracked id)
      | some .reserved => (l.withPending (l.pool.pending.erase id)).log (.completionEarly id)
      | some (.parked x) => (l.withPending (l.pool.pending.erase id)).recycle x := by
  unfold complete Pending.complete
  cases l.pool.pending.get? id with
  | none => rfl
  | some slot => cases slot <;> rfl

section Slots

variable {l : Locked φ} {id : BufferId} {x : Surface}

theorem complete_of_reserved (h : l.pool.pending.get? id = some .reserved) :
    l.complete id =
      (l.withPending (l.pool.pending.erase id)).log (.completionEarly id) := by
  rw [complete_eq, h]

theorem complete_of_parked (h : l.pool.pending.get? id = some (.parked x)) :
    l.complete id = (l.withPending (l.pool.pending.erase id)).recycle x := by
  rw [complete_eq, h]

end Slots

theorem forget_eq (l : Locked φ) (id : BufferId) :
    l.forget id = match l.pool.pending.get? id with
      | none => l
      | some .reserved => l.withPending (l.pool.pending.erase id)
      | some (.parked x) => (l.withPending (l.pool.pending.erase id)).release x := by
  unfold forget Pending.complete
  cases l.pool.pending.get? id with
  | none => rfl
  | some slot => cases slot <;> rfl

/-- A recycled surface is the youngest idle one, or it is gone. -/
theorem recycle_cases (l : Locked φ) (x : Surface) :
    (x.valid = true ∧ l.pool.isFull = false ∧
      (l.recycle x).pool.available = l.pool.available ++ [x]) ∨
    ((x.valid = false ∨ l.pool.isFull = true) ∧
      (l.recycle x).pool.available = l.pool.available ∧
      (l.recycle x).device = l.device.release x) := by
  unfold recycle
  cases hv : x.valid with
  | false => exact .inr ⟨.inl rfl, rfl, rfl⟩
  | true =>
    cases hf : l.pool.isFull with
    | true => exact .inr ⟨.inr rfl, rfl, rfl⟩
    | false => exact .inl ⟨rfl, rfl, rfl⟩

theorem recycle_pending (l : Locked φ) (x : Surface) :
    (l.recycle x).pool.pending = l.pool.pending :=
  Pool.pending_fixture.recycle l x

theorem complete_get? (l : Locked φ) (id k : BufferId) :
    (l.complete id).pool.pending.get? k = if k = id then none else l.pool.pending.get? k := by
  rw [← Pending.get?_complete]
  unfold complete
  dsimp only
  split
  · rfl
  · rfl
  · rw [recycle_pending]

theorem forget_get? (l : Locked φ) (id k : BufferId) :
    (l.forget id).pool.pending.get? k = if k = id then none else l.pool.pending.get? k := by
  rw [← Pending.get?_complete]
  unfold forget
  dsimp only
  split <;> rfl

/-- What waited under a forgotten id is gone. -/
theorem forget_alive (l : Locked φ) (id : BufferId) (h : l.device.alive.Nodup) :
    (l.forget id).device.alive.Nodup ∧
      ∀ x, l.pool.pending.get? id = some (.parked x) →
        x.serial ∉ (l.forget id).device.alive := by
  rw [forget_eq]
  cases l.pool.pending.get? id with
  | none => exact ⟨h, fun x hx => absurd hx (by simp)⟩
  | some slot =>
    cases slot with
    | reserved => exact ⟨h, fun x hx => absurd hx (by simp)⟩
    | parked y =>
      refine ⟨h.erase _, fun x hx => ?_⟩
      obtain rfl : y = x := by simpa using hx
      exact h.not_mem_erase

/-- A surface that is settled into a slot puts out what was parked there. -/
theorem settle_eq (l : Locked φ) (id : BufferId) (x : Surface) :
    l.settle id x = match l.pool.pending.get? id with
      | none => l.recycle x
      | some .reserved => l.withPending (l.pool.pending.park id x).2
      | some (.parked y) => (l.withPending (l.pool.pending.park id x).2).release y := by
  unfold settle park Pending.park
  cases l.pool.pending.get? id with
  | none => rfl
  | some slot => cases slot <;> rfl

theorem settle_of_none {l : Locked φ} {id : BufferId} (h : l.pool.pending.get? id = none)
    (x : Surface) : l.settle id x = l.recycle x := by
  rw [settle_eq, h]

theorem settle_of_reserved {l : Locked φ} {id : BufferId}
    (h : l.pool.pending.get? id = some .reserved) (x : Surface) :
    l.settle id x = l.withPending (l.pool.pending.park id x).2 := by
  rw [settle_eq, h]

variable [Allocator φ]

theorem obtain_pending (l : Locked φ) (size : Size) :
    (l.obtain size).2.pool.pending = l.pool.pending :=
  Pool.pending_fixture.obtain l size

theorem collect_pending (l : Locked φ) (maxAge : UInt32) :
    (l.collect maxAge).2.pool.pending = l.pool.pending :=
  Pool.pending_fixture.collect l maxAge

theorem shrink_pending (l : Locked φ) : l.shrink.2.pool.pending = l.pool.pending :=
  Pool.pending_fixture.shrink l

end Pending

end Locked

end SurfaceReuse
