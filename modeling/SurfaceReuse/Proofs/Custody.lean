import Mathlib.Data.List.Perm.Basic
import SurfaceReuse.Pending.Values
import SurfaceReuse.Pool.Lemmas

set_option autoImplicit false

/-!
Laws of custody. Every surface that exists is in somebody's hands, and operations on a pool pass
surfaces on, release them, and get new ones from the device. What holds of the surfaces in all
hands together, of the device and of the next id, and survives a release and a request, survives
every operation. The main lemmas say so for what an operation does under the pool's lock.
-/

namespace SurfaceReuse

/-- What stays with a surface for good. -/
def Surface.key (s : Surface) : Nat × BufferId := (s.serial, s.id)

def Device.Grant.surfaces : Device.Grant → List Surface
  | .made s => [s]
  | _ => []

def Ending.toList {α : Type} : Ending α → List α
  | .ok a => [a]
  | _ => []

variable {φ : Type} [Allocator φ]

/-- A law on the surfaces that exist, the device, and the id that is given out next. -/
structure Custody (P : List Surface → Device φ → BufferId → Prop) : Prop where
  congr : ∀ {xs ys : List Surface} {d : Device φ} {id : BufferId},
    (xs.map Surface.key).Perm (ys.map Surface.key) → P xs d id → P ys d id
  /-- The law does not look at how the device will answer. -/
  device : ∀ {xs : List Surface} {d : Device φ} {id : BufferId} (allocator : φ)
    (usage : CacheUsage), P xs d id → P xs { d with allocator, usage } id
  release : ∀ {x : Surface} {xs : List Surface} {d : Device φ} {id : BufferId},
    P (x :: xs) d id → P xs (d.release x) id
  request : ∀ {xs : List Surface} {d : Device φ} {id : BufferId} (size : Size),
    P xs d id → P ((d.request size id).1.surfaces ++ xs) (d.request size id).2 id.next

/-- What comes of asking for a surface: the request goes on record, and there is a new surface if
    the allocator made one. -/
theorem Device.request_cases (d : Device φ) (size : Size) (id : BufferId) :
    ∃ (allocator : φ) (r : Request),
      ((d.request size id).1.surfaces = [] ∧
        (d.request size id).2 = { d with allocator, requests := r :: d.requests }) ∨
      ∃ f, (Allocator.answer d.allocator size id).1 = .made f ∧
        (d.request size id).1.surfaces = [(d.build f).1] ∧
        (d.request size id).2 =
          (({ d with allocator, requests := r :: d.requests } : Device φ).build f).2 := by
  unfold Device.request
  cases Allocator.answer d.allocator size id with
  | mk answer allocator =>
    cases answer with
    | refused => exact ⟨allocator, _, .inl ⟨rfl, rfl⟩⟩
    | panicked => exact ⟨allocator, _, .inl ⟨rfl, rfl⟩⟩
    | made f => exact ⟨allocator, _, .inr ⟨f, rfl, rfl, rfl⟩⟩

omit [Allocator φ] in
theorem Device.releaseAll_eq (d : Device φ) (xs : List Surface) :
    d.releaseAll xs = { d with alive := (d.releaseAll xs).alive } := by
  induction xs generalizing d with
  | nil => rfl
  | cons x xs ih => exact ih (d.release x)

omit [Allocator φ] in
theorem Device.requests_releaseAll (d : Device φ) (xs : List Surface) :
    (d.releaseAll xs).requests = d.requests ∧ (d.releaseAll xs).built = d.built := by
  rw [d.releaseAll_eq xs]
  exact ⟨rfl, rfl⟩

omit [Allocator φ] in
theorem Device.mem_alive_releaseAll {d : Device φ} (h : d.alive.Nodup) (xs : List Surface)
    (n : Nat) : n ∈ (d.releaseAll xs).alive ↔ n ∈ d.alive ∧ n ∉ xs.map Surface.serial := by
  induction xs generalizing d with
  | nil => exact ⟨fun hn => ⟨hn, List.not_mem_nil⟩, fun hn => hn.1⟩
  | cons x xs ih =>
    have hrest := ih (d := d.release x) (h.erase x.serial)
    change n ∈ ((d.release x).releaseAll xs).alive ↔ _
    rw [hrest, List.map_cons, List.mem_cons, not_or]
    change n ∈ d.alive.erase x.serial ∧ _ ↔ _
    rw [h.mem_erase_iff]
    tauto

/-- A law that looks neither at the next id nor at the requests on record. -/
theorem Custody.of_build {P : List Surface → Device φ → Prop}
    (congr : ∀ {xs ys : List Surface} {d : Device φ},
      (xs.map Surface.key).Perm (ys.map Surface.key) → P xs d → P ys d)
    (device : ∀ {xs : List Surface} {d : Device φ} (allocator : φ) (usage : CacheUsage)
      (requests : List Request), P xs d → P xs { d with allocator, usage, requests })
    (release : ∀ {x : Surface} {xs : List Surface} {d : Device φ},
      P (x :: xs) d → P xs (d.release x))
    (build : ∀ {xs : List Surface} {d : Device φ} (f : Features),
      P xs d → P ((d.build f).1 :: xs) (d.build f).2) :
    Custody fun xs d (_ : BufferId) => P xs d where
  congr hp h := congr hp h
  device allocator usage h := device allocator usage _ h
  release h := release h
  request := by
    intro xs d id size h
    obtain ⟨allocator, r, ⟨hs, hd⟩ | ⟨f, -, hs, hd⟩⟩ := d.request_cases size id
    · rw [hs, hd]
      exact device allocator d.usage _ h
    · rw [hs, hd]
      exact build f (device allocator d.usage _ h)

theorem eraseP_perm {α : Type} (p : α → Bool) (xs : List α) (x : α) (h : xs.find? p = some x) :
    xs.Perm (x :: xs.eraseP p) := by
  induction xs with
  | nil => simp at h
  | cons y ys ih =>
    rw [List.find?_cons] at h
    split at h
    · rename_i hy
      obtain rfl : y = x := Option.some.inj h
      rw [List.eraseP_cons_of_pos hy]
    · rename_i hy
      rw [List.eraseP_cons_of_neg (by simp [hy])]
      exact ((ih h).cons y).trans (List.Perm.swap _ _ _)

/-- What is found and what is left, when it is known which element is the first one. -/
theorem first_eq {α : Type} {p : α → Bool} {front : List α} {x : α} (hx : p x = true)
    (hfront : ∀ y ∈ front, p y = false) (back : List α) :
    (front ++ x :: back).find? p = some x ∧ (front ++ x :: back).eraseP p = front ++ back := by
  constructor
  · exact List.find?_eq_some_iff_append.mpr
      ⟨hx, front, back, rfl, fun y hy => by simp [hfront y hy]⟩
  · rw [List.eraseP_append_right _ fun y hy => by simp [hfront y hy], List.eraseP_cons_of_pos hx]

theorem find_eraseP_perm {α : Type} (p : α → Bool) (xs : List α) :
    ((xs.find? p).toList ++ xs.eraseP p).Perm xs := by
  cases h : xs.find? p with
  | none => rw [List.eraseP_of_forall_not (List.find?_eq_none.mp h)]; exact List.Perm.refl _
  | some x => exact (eraseP_perm p xs x h).symm

theorem tick_key {maxAge : UInt32} {s t : Surface} (h : s.tick? maxAge = some t) :
    t.key = s.key := by
  unfold Surface.tick? at h
  split at h
  · obtain rfl := Option.some.inj h
    rfl
  · exact absurd h (by simp)

theorem tick_perm (maxAge : UInt32) (xs : List Surface) :
    ((xs.filterMap (Surface.tick? maxAge) ++ xs.filter fun s => (s.tick? maxAge).isNone).map
      Surface.key).Perm (xs.map Surface.key) := by
  induction xs with
  | nil => exact List.Perm.refl _
  | cons x xs ih =>
    cases h : x.tick? maxAge with
    | none =>
      rw [List.filterMap_cons_none h, List.filter_cons_of_pos (by simp [h])]
      exact (List.perm_middle.map _).trans (ih.cons _)
    | some y =>
      rw [List.filterMap_cons_some h, List.filter_cons_of_neg (by simp [h]), List.cons_append,
        List.map_cons, List.map_cons, tick_key h]
      exact ih.cons _

namespace Locked

/-- The law holds of the idle surfaces and the others together. -/
def Keeps (P : List Surface → Device φ → BufferId → Prop) (l : Locked φ) (others : List Surface) :
    Prop :=
  P (l.pool.available ++ others) l.device l.pool.nextId

variable {P : List Surface → Device φ → BufferId → Prop} (law : Custody P) {l : Locked φ}
  {others : List Surface}

include law

theorem keeps_perm {others' : List Surface} (hp : others.Perm others') (h : l.Keeps P others) :
    l.Keeps P others' :=
  law.congr ((hp.append_left _).map _) h

theorem keeps_release (x : Surface) (h : l.Keeps P (x :: others)) :
    (l.release x).Keeps P others :=
  law.release (law.congr (List.perm_middle.map _) h)

theorem keeps_releaseAll (xs : List Surface) (h : l.Keeps P (xs ++ others)) :
    (l.releaseAll xs).Keeps P others := by
  induction xs generalizing l with
  | nil => exact h
  | cons x xs ih => exact ih (keeps_release law x h)

omit [Allocator φ] law in
theorem keeps_push (x : Surface) (h : l.Keeps P (x :: others)) : (l.push x).Keeps P others := by
  change P ((l.pool.available ++ [x]) ++ others) _ _
  rw [List.append_assoc]
  exact h

theorem keeps_take {size : Size} {x : Surface} {l' : Locked φ} (h : l.take? size = some (x, l'))
    (hl : l.Keeps P others) : l'.Keeps P (x :: others) := by
  obtain ⟨hx, rfl⟩ := take_eq_some h
  have hp := (eraseP_perm _ _ _ hx).append_right others
  exact law.congr ((hp.trans List.perm_middle.symm).map _) hl

theorem keeps_create (size : Size) (h : l.Keeps P others) :
    (l.create size).2.Keeps P ((l.create size).1.toList ++ others) := by
  have hr := law.request size h
  rw [create_eq]
  split
  · rename_i heq
    rw [heq] at hr
    exact hr
  · rename_i heq
    rw [heq] at hr
    exact hr
  · rename_i x heq
    rw [heq] at hr
    split
    · exact law.congr (List.perm_middle.symm.map _) hr
    · exact law.release hr

theorem keeps_obtain (size : Size) (h : l.Keeps P others) :
    (l.obtain size).2.Keeps P ((l.obtain size).1.toList.map Prod.fst ++ others) := by
  unfold obtain
  split
  · rename_i x l' heq
    exact keeps_take law heq h
  · have hc := keeps_create law size h
    cases hl : l.create size with
    | mk ending l' =>
      rw [hl] at hc
      cases ending <;> exact hc

theorem keeps_recycle (x : Surface) (h : l.Keeps P (x :: others)) :
    (l.recycle x).Keeps P others := by
  unfold recycle
  split
  · dsimp only
    split
    · exact keeps_release law x h
    · exact keeps_push x h
  · exact keeps_release law x h

theorem keeps_replenish (size : Size) (note : PoolError → Size → Log.Event)
    (h : l.Keeps P others) : (l.replenish size note).2.Keeps P others := by
  have hc := keeps_create law size h
  rw [replenish_eq]
  split
  · rename_i x heq
    rw [heq] at hc
    exact keeps_push x hc
  · rename_i heq
    rw [heq] at hc
    exact hc
  · rename_i heq
    rw [heq] at hc
    exact hc

theorem keeps_evict (maxAge : UInt32) (h : l.Keeps P others) :
    (l.evict maxAge).Keeps P others := by
  let old := l.pool.available.filter fun s => (s.tick? maxAge).isNone
  let kept := l.pool.available.filterMap (Surface.tick? maxAge)
  let l' : Locked φ := { l with pool := { l.pool with available := kept } }
  have hp := tick_perm maxAge l.pool.available
  have hl : l'.Keeps P (old ++ others) := by
    refine law.congr ?_ h
    have ha := hp.symm.append_right (others.map Surface.key)
    rw [← List.map_append, ← List.map_append, List.append_assoc] at ha
    exact ha
  change ((if old.isEmpty then l' else l'.log (.oldCollected old.length)).releaseAll old).Keeps P
    others
  split
  · exact keeps_releaseAll law old hl
  · exact keeps_releaseAll law old hl

theorem keeps_shrinkFirst (h : l.Keeps P others) : l.shrinkFirst.2.Keeps P others := by
  unfold shrinkFirst
  split
  · exact h
  · rename_i s hs
    have hp := (eraseP_perm _ _ _ hs).append_right others
    exact keeps_replenish law _ _ <| keeps_release law s <|
      law.congr ((hp.trans List.perm_middle.symm).map _) h

theorem keeps_collect (maxAge : UInt32) (h : l.Keeps P others) :
    (l.collect maxAge).2.Keeps P others := by
  have hs := keeps_shrinkFirst law (keeps_evict law maxAge h)
  rw [collect_eq]
  dsimp only
  split
  · exact hs
  · exact hs

theorem keeps_replenishAll (sizes : List Size) (h : l.Keeps P others) :
    (l.replenishAll sizes).2.Keeps P others := by
  induction sizes generalizing l with
  | nil => exact h
  | cons size sizes ih =>
    have hr := keeps_replenish law size .resizeFailed h
    rw [replenishAll_cons]
    split
    · exact hr
    · exact ih hr

theorem keeps_withoutLarge (h : l.Keeps P others) : l.withoutLarge.Keeps P others := by
  refine keeps_releaseAll law _ (law.congr (List.Perm.map _ ?_) h)
  have hp := List.filter_append_perm (fun s : Surface => s.oversized) l.pool.available
  rw [← List.append_assoc]
  exact (hp.symm.trans List.perm_append_comm).append_right others

theorem keeps_shrink (h : l.Keeps P others) : l.shrink.2.Keeps P others := by
  have hs := keeps_replenishAll law l.largeSizes (keeps_withoutLarge law h)
  rw [shrink_eq]
  dsimp only
  split
  · exact hs
  · exact hs

/-- The law holds of all surfaces of the pool and the others together. -/
def KeepsAll (P : List Surface → Device φ → BufferId → Prop) (l : Locked φ)
    (others : List Surface) : Prop :=
  l.Keeps P (l.pool.pending.values ++ others)

omit [Allocator φ] law in
theorem keepsAll_of_pending {l' : Locked φ} (hp : l'.pool.pending = l.pool.pending)
    (h : l'.Keeps P (l.pool.pending.values ++ others)) : l'.KeepsAll P others := by
  unfold KeepsAll
  rw [hp]
  exact h

omit [Allocator φ] law in
theorem keepsAll_reserve (id : BufferId) (h : l.KeepsAll P others) :
    (l.reserve id).2.KeepsAll P others := by
  change P (_ ++ ((l.pool.pending.reserve id).2.values ++ others)) _ _
  rw [Pending.values_reserve]
  exact h

theorem keepsAll_recycle (x : Surface) (h : l.KeepsAll P (x :: others)) :
    (l.recycle x).KeepsAll P others :=
  keepsAll_of_pending (l.recycle_pending x)
    (keeps_recycle law x (keeps_perm law List.perm_middle h))

theorem keepsAll_obtain (size : Size) (h : l.KeepsAll P others) :
    (l.obtain size).2.KeepsAll P ((l.obtain size).1.toList.map Prod.fst ++ others) :=
  keepsAll_of_pending (l.obtain_pending size)
    (keeps_perm law (List.perm_append_comm_assoc _ _ _) (keeps_obtain law size h))

theorem keepsAll_erase {id : BufferId} {slot : Slot Surface}
    (hs : l.pool.pending.get? id = some slot) (h : l.KeepsAll P others) :
    (l.withPending (l.pool.pending.erase id)).KeepsAll P (slot.value?.toList ++ others) := by
  refine keeps_perm law ?_ h
  have hv := (Pending.values_erase _ _ _ hs).symm.append_right others
  refine hv.trans ?_
  rw [List.append_assoc]
  exact List.perm_append_comm_assoc _ _ _

theorem keepsAll_complete (id : BufferId) (h : l.KeepsAll P others) :
    (l.complete id).KeepsAll P others := by
  rw [complete_eq]
  split
  · exact h
  · rename_i hs
    exact keepsAll_erase law hs h
  · rename_i x hs
    exact keepsAll_recycle law x (keepsAll_erase law hs h)

theorem keepsAll_forget (id : BufferId) (h : l.KeepsAll P others) :
    (l.forget id).KeepsAll P others := by
  rw [forget_eq]
  split
  · exact h
  · rename_i hs
    exact keepsAll_erase law hs h
  · rename_i x hs
    exact keeps_release law x (keeps_perm law List.perm_middle (keepsAll_erase law hs h))

theorem keepsAll_settle (id : BufferId) (x : Surface) (h : l.KeepsAll P (x :: others)) :
    (l.settle id x).KeepsAll P others := by
  have hpark : ∀ slot, l.pool.pending.get? id = some slot →
      (l.withPending (l.pool.pending.park id x).2).Keeps P (slot.value?.toList ++
        ((l.pool.pending.park id x).2.values ++ others)) := by
    intro slot hs
    refine keeps_perm law ?_ h
    have hv := (Pending.values_park _ _ x _ hs).symm.append_right others
    rw [← List.append_assoc]
    exact List.perm_middle.trans hv
  rw [settle_eq]
  split
  · exact keepsAll_recycle law x h
  · rename_i hs
    exact hpark _ hs
  · rename_i y hs
    exact keeps_release law y (hpark _ hs)

end Locked

end SurfaceReuse
