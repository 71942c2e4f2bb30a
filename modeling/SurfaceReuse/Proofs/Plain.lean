import SurfaceReuse.Pending.Values
import SurfaceReuse.Pool.Lemmas

set_option autoImplicit false

/-!
A pool in plain form, without all that only statistics show: the memory behind surfaces, the
counters, the last report, the usage of the resource cache and the log. No operation under the
lock looks at any of it, so two pools of the same plain form keep it the same, and their
operations end alike.
-/

namespace SurfaceReuse

def Features.plain (f : Features) : Features :=
  { f with allocation := none }

def Answer.plain : Answer → Answer
  | .made f => .made f.plain
  | .refused => .refused
  | .panicked => .panicked

namespace Allocator

/-- What an allocator answers to a request after a row of earlier ones. -/
def Behaviour : Type := List (Size × BufferId) → Size → BufferId → Answer

instance : Allocator Behaviour where
  answer b size id := (b [] size id, fun past => b ((size, id) :: past))

variable {φ : Type} [Allocator φ]

/-- The allocator after a row of requests. -/
def after (a : φ) : List (Size × BufferId) → φ
  | [] => a
  | request :: past => after (answer a request.1 request.2).2 past

def plain (a : φ) : Behaviour :=
  fun past size id => (answer (after a past) size id).1.plain

theorem answer_plain (a : φ) (size : Size) (id : BufferId) :
    answer (plain a) size id = ((answer a size id).1.plain, plain (answer a size id).2) := rfl

end Allocator

open Allocator (Behaviour)

namespace Surface

def plain (x : Surface) : Surface :=
  x.withFeatures x.toFeatures.plain

theorem fits_comp_plain (size : Size) : fits size ∘ plain = fits size := rfl

theorem shrinkable_comp_plain : shrinkable ∘ plain = shrinkable := rfl

theorem tick?_plain (maxAge : UInt32) (x : Surface) :
    x.plain.tick? maxAge = (x.tick? maxAge).map plain := by
  unfold tick?
  change (if x.valid && x.older.age < maxAge then _ else _) = _
  split <;> rfl

end Surface

def Pool.plain (p : Pool) : Pool :=
  { p.mapSurfaces Surface.plain with created := 0, reused := 0, lastReport := {} }

variable {φ : Type} [Allocator φ]

namespace Device

def plain (d : Device φ) : Device Behaviour where
  allocator := Allocator.plain d.allocator
  built := d.built
  alive := d.alive
  requests := d.requests

def Grant.plain : Grant → Grant
  | .made x => .made x.plain
  | .refused => .refused
  | .panicked => .panicked

omit [Allocator φ] in
theorem Grant.plain_cases {g g' : Grant} (h : g.plain = g'.plain) :
    (g = .refused ∧ g' = .refused) ∨ (g = .panicked ∧ g' = .panicked) ∨
      ∃ x y, g = .made x ∧ g' = .made y ∧ x.plain = y.plain := by
  cases g <;> cases g' <;> simp_all [plain]

theorem request_plain (d : Device φ) (size : Size) (id : BufferId) :
    d.plain.request size id = ((d.request size id).1.plain, (d.request size id).2.plain) := by
  have h := Allocator.answer_plain d.allocator size id
  change Allocator.answer d.plain.allocator size id = _ at h
  unfold request
  rw [h]
  cases Allocator.answer d.allocator size id with
  | mk answer allocator => cases answer <;> rfl

theorem releaseAll_plain (d : Device φ) (xs : List Surface) :
    (d.releaseAll xs).plain = d.plain.releaseAll (xs.map Surface.plain) := by
  induction xs generalizing d with
  | nil => rfl
  | cons x xs ih => exact ih (d.release x)

end Device

/-- Two slots that differ at most in what only statistics show of their surfaces. -/
inductive Slot.Alike : Option (Slot Surface) → Option (Slot Surface) → Prop where
  | untracked : Alike none none
  | reserved : Alike (some .reserved) (some .reserved)
  | parked {x y : Surface} (h : x.plain = y.plain) : Alike (some (.parked x)) (some (.parked y))

/-- Two operations end alike, with results that are related. -/
inductive Ending.Alike {α : Type} (R : α → α → Prop) : Ending α → Ending α → Prop where
  | ok {a b : α} (h : R a b) : Alike R (.ok a) (.ok b)
  | failed (error : PoolError) : Alike R (.failed error) (.failed error)
  | panicked : Alike R .panicked .panicked

theorem Ending.Alike.isPanic {α : Type} {R : α → α → Prop} {r r' : Ending α} (h : r.Alike R r') :
    r.isPanic = r'.isPanic := by
  cases h <;> rfl

namespace Locked

def plain (l : Locked φ) : Locked Behaviour :=
  ⟨l.pool.plain, l.device.plain, {}⟩

/-- Two operations end alike and leave states of the same plain form. -/
structure Alike {α : Type} (R : α → α → Prop) (r r' : Ending α × Locked φ) : Prop where
  ending : r.1.Alike R r'.1
  state : r.2.plain = r'.2.plain

@[simp] theorem log_plain (l : Locked φ) (e : Log.Event) : (l.log e).plain = l.plain := rfl

@[simp] theorem report_plain (l : Locked φ) : l.report.plain = l.plain := rfl

@[simp] theorem countReused_plain (l : Locked φ) : l.countReused.plain = l.plain := rfl

@[simp] theorem release_plain (l : Locked φ) (x : Surface) :
    (l.release x).plain = l.plain.release x.plain := rfl

@[simp] theorem withPending_plain (l : Locked φ) (pending : Pending Surface) :
    (l.withPending pending).plain = l.plain.withPending (pending.map Surface.plain) := rfl

@[simp] theorem releaseAll_plain (l : Locked φ) (xs : List Surface) :
    (l.releaseAll xs).plain = l.plain.releaseAll (xs.map Surface.plain) :=
  congrArg (fun d => (⟨l.pool.plain, d, {}⟩ : Locked Behaviour)) (l.device.releaseAll_plain xs)

@[simp] theorem push_plain (l : Locked φ) (x : Surface) :
    (l.push x).plain = l.plain.push x.plain := by
  simp [plain, push, Pool.push, Pool.plain, Pool.mapSurfaces]

@[simp] theorem isFull_plain (l : Locked φ) : l.plain.pool.isFull = l.pool.isFull := by
  simp [plain, Pool.plain, Pool.mapSurfaces, Pool.isFull]

/-- The state with other idle surfaces. -/
def withIdle (l : Locked φ) (available : List Surface) : Locked φ :=
  { l with pool := { l.pool with available } }

@[simp] theorem withIdle_plain (l : Locked φ) (available : List Surface) :
    (l.withIdle available).plain = l.plain.withIdle (available.map Surface.plain) := rfl

theorem requested_plain (l : Locked φ) (size : Size) :
    (l.requested size).plain = l.plain.requested size := by
  have h := congrArg Prod.snd (l.device.request_plain size l.pool.nextId)
  exact congrArg (fun d => (⟨{ l.pool.plain with nextId := l.pool.nextId.next }, d, {}⟩ : Locked _))
    h.symm

variable {l l' : Locked φ}

section Same

variable (h : l.plain = l'.plain)

include h

theorem available_alike :
    l.pool.available.map Surface.plain = l'.pool.available.map Surface.plain :=
  congrArg (fun l => l.pool.available) h

theorem pending_alike : l.pool.pending.map Surface.plain = l'.pool.pending.map Surface.plain :=
  congrArg (fun l => l.pool.pending) h

theorem slot_alike (id : BufferId) :
    Slot.Alike (l.pool.pending.get? id) (l'.pool.pending.get? id) := by
  have hslot := congrArg (fun p => p.get? id) (pending_alike h)
  simp only [Pending.map, Pending.get?_mapSlots] at hslot
  revert hslot
  cases l.pool.pending.get? id with
  | none =>
    cases l'.pool.pending.get? id with
    | none => exact fun _ => .untracked
    | some _ => simp
  | some slot =>
    cases l'.pool.pending.get? id with
    | none => simp
    | some slot' =>
      cases slot <;> cases slot' <;> simp only [Option.map_some, Slot.map] <;> intro hslot
      · exact .reserved
      · exact absurd hslot (by simp)
      · exact absurd hslot (by simp)
      · exact .parked (Slot.parked.inj (Option.some.inj hslot))

theorem erase_alike (id : BufferId) :
    (l.withPending (l.pool.pending.erase id)).plain =
      (l'.withPending (l'.pool.pending.erase id)).plain := by
  simp only [withPending_plain, h, ← Pending.erase_map, pending_alike h]

theorem park_alike (id : BufferId) {x y : Surface} (hx : x.plain = y.plain) :
    (l.withPending (l.pool.pending.park id x).2).plain =
      (l'.withPending (l'.pool.pending.park id y).2).plain := by
  simp only [withPending_plain, h, ← Pending.park_map, pending_alike h, hx]

theorem reserve_alike (id : BufferId) :
    (l.withPending (l.pool.pending.reserve id).2).plain =
      (l'.withPending (l'.pool.pending.reserve id).2).plain := by
  simp only [withPending_plain, h, ← Pending.reserve_map, pending_alike h]

theorem recycle_alike {x y : Surface} (hx : x.plain = y.plain) :
    (l.recycle x).plain = (l'.recycle y).plain := by
  have hvalid : x.valid = y.valid := congrArg (fun x => x.valid) hx
  have hfull : l.pool.isFull = l'.pool.isFull := by rw [← isFull_plain, h, isFull_plain]
  unfold recycle
  rw [hvalid, hfull]
  cases y.valid with
  | false => simp [h, hx]
  | true => cases l'.pool.isFull <;> simp [h, hx]

theorem complete_alike (id : BufferId) : (l.complete id).plain = (l'.complete id).plain := by
  have hslot := slot_alike h id
  have herase := erase_alike h id
  rw [complete_eq, complete_eq]
  generalize l.pool.pending.get? id = slot at hslot ⊢
  generalize l'.pool.pending.get? id = slot' at hslot ⊢
  cases hslot with
  | untracked => exact h
  | reserved => exact herase
  | parked hx => exact recycle_alike herase hx

theorem forget_alike (id : BufferId) : (l.forget id).plain = (l'.forget id).plain := by
  have hslot := slot_alike h id
  have herase := erase_alike h id
  rw [forget_eq, forget_eq]
  generalize l.pool.pending.get? id = slot at hslot ⊢
  generalize l'.pool.pending.get? id = slot' at hslot ⊢
  cases hslot with
  | untracked => exact h
  | reserved => exact herase
  | parked hx => simp only [release_plain, herase, hx]

theorem settle_alike (id : BufferId) {x y : Surface} (hx : x.plain = y.plain) :
    (l.settle id x).plain = (l'.settle id y).plain := by
  have hslot := slot_alike h id
  have hpark := park_alike h id hx
  rw [settle_eq, settle_eq]
  generalize l.pool.pending.get? id = slot at hslot ⊢
  generalize l'.pool.pending.get? id = slot' at hslot ⊢
  cases hslot with
  | untracked => exact recycle_alike h hx
  | reserved => exact hpark
  | parked hy => simp only [release_plain, hpark, hy]

theorem contains_alike (id : BufferId) :
    l.pool.pending.contains id = l'.pool.pending.contains id := by
  rw [← Pending.contains_map l.pool.pending Surface.plain, pending_alike h, Pending.contains_map]

theorem fresh_alike (id : BufferId) :
    (l.pool.pending.reserve id).1 = (l'.pool.pending.reserve id).1 := by
  rw [Pending.reserve_fst, Pending.reserve_fst, contains_alike h]

theorem find_alike {p : Surface → Bool} (hp : p ∘ Surface.plain = p) :
    (l.pool.available.find? p).map Surface.plain =
      (l'.pool.available.find? p).map Surface.plain := by
  have hfind := congrArg (List.find? p) (available_alike h)
  rwa [List.find?_map, List.find?_map, hp] at hfind

theorem eraseP_alike {p : Surface → Bool} (hp : p ∘ Surface.plain = p) :
    (l.withIdle (l.pool.available.eraseP p)).plain =
      (l'.withIdle (l'.pool.available.eraseP p)).plain := by
  have herase := congrArg (List.eraseP p) (available_alike h)
  rw [List.eraseP_map, List.eraseP_map, hp] at herase
  simp only [withIdle_plain, h, herase]

theorem filter_alike {p : Surface → Bool} (hp : p ∘ Surface.plain = p) :
    (l.pool.available.filter p).map Surface.plain =
      (l'.pool.available.filter p).map Surface.plain := by
  have hfilter := congrArg (List.filter p) (available_alike h)
  rwa [List.filter_map, List.filter_map, hp] at hfilter

theorem create_alike (size : Size) :
    Alike (fun x y => x.plain = y.plain) (l.create size) (l'.create size) := by
  have hid : l.pool.nextId = l'.pool.nextId := congrArg (fun l => l.pool.nextId) h
  have hdevice : l.device.plain = l'.device.plain := congrArg (fun l => l.device) h
  have hgrant : (l.device.request size l'.pool.nextId).1.plain =
      (l'.device.request size l'.pool.nextId).1.plain := by
    have h₁ := congrArg Prod.fst (l.device.request_plain size l'.pool.nextId)
    have h₂ := congrArg Prod.fst (l'.device.request_plain size l'.pool.nextId)
    rw [hdevice] at h₁
    exact h₁.symm.trans h₂
  have hrequested : (l.requested size).plain = (l'.requested size).plain := by
    rw [requested_plain, h, requested_plain]
  rw [create_eq, create_eq, hid]
  rcases Device.Grant.plain_cases hgrant with ⟨hg, hg'⟩ | ⟨hg, hg'⟩ | ⟨x, y, hg, hg', hx⟩
  · rw [hg, hg']
    exact ⟨.failed _, hrequested⟩
  · rw [hg, hg']
    exact ⟨.panicked, hrequested⟩
  · have hvalid : x.valid = y.valid := congrArg (fun x => x.valid) hx
    rw [hg, hg']
    dsimp only
    rw [hvalid]
    cases y.valid with
    | true => exact ⟨.ok hx, hrequested⟩
    | false =>
      refine ⟨.failed _, ?_⟩
      change (((l.requested size).log _).release x).plain =
        (((l'.requested size).log _).release y).plain
      simp only [release_plain, log_plain, hrequested, hx]

theorem obtain_alike (size : Size) :
    Alike (fun a b => a.1.plain = b.1.plain ∧ a.2 = b.2) (l.obtain size) (l'.obtain size) := by
  have hfind := find_alike h (Surface.fits_comp_plain size)
  have hrest := eraseP_alike h (Surface.fits_comp_plain size)
  obtain ⟨hending, hstate⟩ := create_alike h size
  unfold obtain take? Pool.take?
  cases hx : l.pool.available.find? (Surface.fits size) with
  | none =>
    cases hy : l'.pool.available.find? (Surface.fits size) with
    | some y => simp [hx, hy] at hfind
    | none =>
      refine ⟨?_, hstate⟩
      change ((l.create size).1.map _).Alike _ ((l'.create size).1.map _)
      generalize (l.create size).1 = r at hending ⊢
      generalize (l'.create size).1 = r' at hending ⊢
      cases hending with
      | ok hx => exact .ok ⟨hx, rfl⟩
      | failed error => exact .failed error
      | panicked => exact .panicked
  | some x =>
    cases hy : l'.pool.available.find? (Surface.fits size) with
    | none => simp [hx, hy] at hfind
    | some y =>
      have hxy : x.plain = y.plain := by simpa [hx, hy] using hfind
      exact ⟨.ok ⟨hxy, rfl⟩, hrest⟩

theorem replenish_alike (size : Size) (note : PoolError → Size → Log.Event) :
    Alike (fun _ _ => True) (l.replenish size note) (l'.replenish size note) := by
  obtain ⟨hending, hstate⟩ := create_alike h size
  rw [replenish_eq, replenish_eq]
  generalize (l.create size).1 = r at hending ⊢
  generalize (l'.create size).1 = r' at hending ⊢
  cases hending with
  | ok hx => exact ⟨.ok trivial, by simp only [push_plain, hstate, hx]⟩
  | failed error => exact ⟨.ok trivial, hstate⟩
  | panicked => exact ⟨.panicked, hstate⟩

end Same

theorem replenishAll_alike (sizes : List Size) {l l' : Locked φ} (h : l.plain = l'.plain) :
    Alike (fun _ _ => True) (l.replenishAll sizes) (l'.replenishAll sizes) := by
  induction sizes generalizing l l' with
  | nil => exact ⟨.ok trivial, h⟩
  | cons size sizes ih =>
    have hr := replenish_alike h size .resizeFailed
    rw [replenishAll_cons, replenishAll_cons, hr.ending.isPanic]
    split
    · exact ⟨.panicked, hr.state⟩
    · exact ih hr.state

theorem closing_alike {r r' : Ending Unit × Locked φ} (hr : Alike (fun _ _ => True) r r') :
    Alike (fun _ _ => True) (r.1, if r.1.isPanic then r.2 else r.2.report)
      (r'.1, if r'.1.isPanic then r'.2 else r'.2.report) := by
  refine ⟨hr.ending, ?_⟩
  dsimp only
  rw [hr.ending.isPanic]
  split
  · exact hr.state
  · exact hr.state

section Same

variable (h : l.plain = l'.plain)

include h

theorem evict_alike (maxAge : UInt32) : (l.evict maxAge).plain = (l'.evict maxAge).plain := by
  have hold := filter_alike h (p := fun x => (x.tick? maxAge).isNone)
    (funext fun x => by simp [Surface.tick?_plain])
  have hkept : (l.pool.available.filterMap (Surface.tick? maxAge)).map Surface.plain =
      (l'.pool.available.filterMap (Surface.tick? maxAge)).map Surface.plain := by
    have hticked := congrArg (List.filterMap (Surface.tick? maxAge)) (available_alike h)
    have hcomp : Surface.tick? maxAge ∘ Surface.plain =
        fun x => (x.tick? maxAge).map Surface.plain := funext (Surface.tick?_plain maxAge)
    rwa [List.filterMap_map, List.filterMap_map, hcomp, ← List.map_filterMap,
      ← List.map_filterMap] at hticked
  have hnoted : ∀ (l : Locked φ) (old : List Surface) (e : Log.Event),
      ((if old.isEmpty then l else l.log e).releaseAll old).plain =
        l.plain.releaseAll (old.map Surface.plain) := by
    intro l old e
    split <;> simp
  refine (hnoted (l.withIdle _) _ _).trans (Eq.trans ?_ (hnoted (l'.withIdle _) _ _).symm)
  rw [withIdle_plain, withIdle_plain, h, hkept, hold]

theorem shrinkFirst_alike : Alike (fun _ _ => True) l.shrinkFirst l'.shrinkFirst := by
  have hfind := find_alike h Surface.shrinkable_comp_plain
  have hrest := eraseP_alike h Surface.shrinkable_comp_plain
  unfold shrinkFirst
  cases hx : l.pool.available.find? Surface.shrinkable with
  | none =>
    cases hy : l'.pool.available.find? Surface.shrinkable with
    | some y => simp [hx, hy] at hfind
    | none => exact ⟨.ok trivial, h⟩
  | some x =>
    cases hy : l'.pool.available.find? Surface.shrinkable with
    | none => simp [hx, hy] at hfind
    | some y =>
      have hxy : x.plain = y.plain := by simpa [hx, hy] using hfind
      have hsize : x.size = y.size := congrArg (fun x => x.size) hxy
      let rest := l.withIdle (l.pool.available.eraseP Surface.shrinkable)
      let rest' := l'.withIdle (l'.pool.available.eraseP Surface.shrinkable)
      have hfreed : ((rest.log (.shrinking x.id y.size)).release x).plain =
          ((rest'.log (.shrinking y.id y.size)).release y).plain := by
        simp only [release_plain, log_plain, rest, rest', hrest, hxy]
      dsimp only
      rw [hsize]
      exact replenish_alike hfreed y.size .shrinkFailed

theorem collect_alike (maxAge : UInt32) :
    Alike (fun _ _ => True) (l.collect maxAge) (l'.collect maxAge) := by
  rw [collect_eq, collect_eq]
  exact closing_alike (shrinkFirst_alike (evict_alike h maxAge))

theorem shrink_alike : Alike (fun _ _ => True) l.shrink l'.shrink := by
  have hlarge := filter_alike h (p := fun x => x.oversized) rfl
  have hkept := filter_alike h (p := fun x => !x.oversized) rfl
  have hfreed : l.withoutLarge.plain = l'.withoutLarge.plain := by
    refine ((l.withIdle _).releaseAll_plain _).trans
      (Eq.trans ?_ ((l'.withIdle _).releaseAll_plain _).symm)
    rw [withIdle_plain, withIdle_plain, h, hkept, hlarge]
  have hsizes : l.largeSizes = l'.largeSizes := by
    have hmap := congrArg (List.map fun x : Surface => x.size) hlarge
    rwa [List.map_map, List.map_map] at hmap
  rw [shrink_eq, shrink_eq, hsizes]
  exact closing_alike (replenishAll_alike _ hfreed)

end Same

end Locked

end SurfaceReuse
