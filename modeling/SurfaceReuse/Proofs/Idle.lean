import SurfaceReuse.Proofs.Custody

set_option autoImplicit false

/-!
What the operations under the pool's lock do to the idle surfaces, in their order. Surfaces are
taken out of the row wherever they stand; new ones come from the device and go to the back.
-/

namespace SurfaceReuse

theorem Features.older_age (f : Features) :
    f.older.age.toNat = if f.age.toNat = 4294967295 then f.age.toNat else f.age.toNat + 1 := by
  have hmax : f.age = .ofNat (UInt32.size - 1) ↔ f.age.toNat = 4294967295 := UInt32.toNat_inj.symm
  have hlt := f.age.toNat_lt
  unfold older
  dsimp only
  by_cases h : f.age.toNat = 4294967295
  · rw [if_pos (hmax.mpr h), if_pos h]
  · rw [if_neg (mt hmax.mp h), if_neg h, UInt32.toNat_add]
    change (f.age.toNat + 1) % 4294967296 = _
    omega

theorem Surface.tick?_eq_some {maxAge : UInt32} {x y : Surface} (h : x.tick? maxAge = some y) :
    x.valid = true ∧ x.older.age < maxAge ∧ y = x.withFeatures x.older := by
  unfold tick? at h
  split at h
  · rename_i hc
    obtain ⟨hv, ha⟩ := Bool.and_eq_true_iff.mp hc
    exact ⟨hv, of_decide_eq_true ha, (Option.some.inj h).symm⟩
  · exact absurd h nofun

theorem Surface.mem_ticked {maxAge : UInt32} {xs : List Surface} {y : Surface}
    (h : y ∈ xs.filterMap (tick? maxAge)) :
    ∃ x ∈ xs, x.valid = true ∧ x.older.age < maxAge ∧ y = x.withFeatures x.older := by
  obtain ⟨x, hx, ht⟩ := List.mem_filterMap.mp h
  exact ⟨x, hx, tick?_eq_some ht⟩

theorem Surface.ticked_sublist (maxAge : UInt32) (xs : List Surface) :
    ((xs.filterMap (tick? maxAge)).map serial).Sublist (xs.map serial) := by
  induction xs with
  | nil => exact List.Sublist.refl _
  | cons x xs ih =>
    rw [List.filterMap_cons]
    cases h : x.tick? maxAge with
    | none => exact ih.cons _
    | some y =>
      obtain ⟨-, -, rfl⟩ := tick?_eq_some h
      exact ih.cons_cons _

variable {φ : Type} [Allocator φ]

namespace Device

/-- The surface was made by this device later on, for a request of that size, and can be used. -/
structure Fresh (d : Device φ) (size : Size) (x : Surface) : Prop where
  later : d.built < x.serial
  valid : x.valid = true
  asked : ∃ (a : φ) (id : BufferId), (Allocator.answer a size id).1 = .made x.toFeatures

/-- The surfaces that requests for these sizes brought, in order. Any request may have failed. -/
inductive Supply (d : Device φ) : List Size → List Surface → Prop where
  | nothing (sizes : List Size) : Supply d sizes []
  | missed {size : Size} {sizes : List Size} {made : List Surface} (h : Supply d sizes made) :
      Supply d (size :: sizes) made
  | made {size : Size} {sizes : List Size} {x : Surface} {made : List Surface}
      (hx : d.Fresh size x) (h : Supply d sizes made) : Supply d (size :: sizes) (x :: made)

theorem Fresh.mono {d d' : Device φ} {size : Size} {x : Surface} (hle : d.built ≤ d'.built)
    (h : d'.Fresh size x) : d.Fresh size x :=
  ⟨Nat.lt_of_le_of_lt hle h.later, h.valid, h.asked⟩

namespace Supply

variable {d : Device φ} {sizes : List Size} {made : List Surface}

theorem mono {d' : Device φ} (hle : d.built ≤ d'.built) (h : d'.Supply sizes made) :
    d.Supply sizes made := by
  induction h with
  | nothing sizes => exact .nothing sizes
  | missed _ ih => exact .missed ih
  | made hx _ ih => exact .made (hx.mono hle) ih

theorem append {sizes' : List Size} {made' : List Surface} (h : d.Supply sizes made)
    (h' : d.Supply sizes' made') : d.Supply (sizes ++ sizes') (made ++ made') := by
  induction h with
  | nothing sizes =>
    induction sizes with
    | nil => exact h'
    | cons size sizes ih => exact .missed ih
  | missed _ ih => exact .missed ih
  | made hx _ ih => exact .made hx ih

theorem length_le (h : d.Supply sizes made) : made.length ≤ sizes.length := by
  induction h with
  | nothing sizes => exact Nat.zero_le _
  | missed _ ih =>
    simp only [List.length_cons]
    omega
  | made _ _ ih =>
    simp only [List.length_cons]
    omega

theorem fresh (h : d.Supply sizes made) {x : Surface} (hx : x ∈ made) :
    ∃ size ∈ sizes, d.Fresh size x := by
  induction h with
  | nothing sizes => exact absurd hx List.not_mem_nil
  | missed _ ih =>
    obtain ⟨size, hs, hf⟩ := ih hx
    exact ⟨size, List.mem_cons_of_mem _ hs, hf⟩
  | made hy _ ih =>
    rcases List.mem_cons.mp hx with rfl | hx
    · exact ⟨_, List.mem_cons_self, hy⟩
    · obtain ⟨size, hs, hf⟩ := ih hx
      exact ⟨size, List.mem_cons_of_mem _ hs, hf⟩

end Supply

theorem request_spec (d : Device φ) (size : Size) (id : BufferId) :
    d.built ≤ (d.request size id).2.built ∧
    ∀ x, (d.request size id).1 = .made x → x.serial = d.built + 1 ∧
      (Allocator.answer d.allocator size id).1 = .made x.toFeatures := by
  obtain ⟨allocator, r, ⟨hs, hd⟩ | ⟨f, hf, hs, hd⟩⟩ := d.request_cases size id
  · refine ⟨by simp [hd], fun x hx => ?_⟩
    rw [hx] at hs
    exact absurd hs (List.cons_ne_nil x [])
  · refine ⟨by rw [hd]; exact Nat.le_succ _, fun x hx => ?_⟩
    rw [hx] at hs
    obtain rfl : x = (d.build f).1 := List.singleton_inj.mp hs
    exact ⟨rfl, hf⟩

end Device

namespace Locked

theorem create_spec (l : Locked φ) (size : Size) :
    (l.create size).2.pool.available = l.pool.available ∧
    l.device.built ≤ (l.create size).2.device.built ∧
    ∀ x, (l.create size).1 = .ok x → l.device.Fresh size x := by
  have hbuilt : l.device.built ≤ (l.requested size).device.built :=
    (l.device.request_spec size l.pool.nextId).1
  have hmade := (l.device.request_spec size l.pool.nextId).2
  rw [create_eq]
  split
  · exact ⟨rfl, hbuilt, nofun⟩
  · exact ⟨rfl, hbuilt, nofun⟩
  · rename_i y hy
    obtain ⟨hserial, hasked⟩ := hmade y hy
    split
    · rename_i hv
      refine ⟨rfl, hbuilt, fun x hx => ?_⟩
      obtain rfl : y = x := Ending.ok.inj hx
      exact ⟨by omega, hv, _, _, hasked⟩
    · exact ⟨rfl, hbuilt, nofun⟩

/-- A request is served by the first idle surface that fits, and by a new one only if none does. -/
theorem obtain_cases (l : Locked φ) (size : Size) :
    (∃ x, l.pool.available.find? (Surface.fits size) = some x ∧
      (l.obtain size).1 = .ok (x, true) ∧
      (l.obtain size).2.pool.available = l.pool.available.eraseP (Surface.fits size)) ∨
    (l.pool.available.find? (Surface.fits size) = none ∧
      (l.obtain size).2.pool.available = l.pool.available ∧
      ∀ r, (l.obtain size).1 = .ok r → r.2 = false ∧ l.device.Fresh size r.1) := by
  unfold obtain
  split
  · rename_i x l' h
    obtain ⟨hx, rfl⟩ := take_eq_some h
    exact .inl ⟨x, hx, rfl, rfl⟩
  · rename_i h
    have hnone : l.pool.available.find? (Surface.fits size) = none := by
      simpa [take?, Pool.take?] using h
    obtain ⟨hidle, -, hfresh⟩ := l.create_spec size
    refine .inr ⟨hnone, hidle, fun r hr => ?_⟩
    change ((l.create size).1.map fun s => (s, false)) = .ok r at hr
    cases hc : (l.create size).1 with
    | ok x =>
      rw [hc] at hr
      obtain rfl := Ending.ok.inj hr
      exact ⟨rfl, hfresh x hc⟩
    | failed error =>
      rw [hc] at hr
      exact absurd hr (by simp [Ending.map])
    | panicked =>
      rw [hc] at hr
      exact absurd hr (by simp [Ending.map])

theorem replenish_spec (l : Locked φ) (size : Size) (note : PoolError → Size → Log.Event) :
    l.device.built ≤ (l.replenish size note).2.device.built ∧
    ∃ made, (l.replenish size note).2.pool.available = l.pool.available ++ made ∧
      l.device.Supply [size] made := by
  obtain ⟨hidle, hbuilt, hfresh⟩ := l.create_spec size
  rw [replenish_eq]
  split
  · rename_i x hx
    refine ⟨hbuilt, [x], ?_, .made (hfresh x hx) (.nothing [])⟩
    change (l.create size).2.pool.available ++ [x] = _
    rw [hidle]
  · exact ⟨hbuilt, [], hidle.trans (List.append_nil _).symm, .nothing _⟩
  · exact ⟨hbuilt, [], hidle.trans (List.append_nil _).symm, .nothing _⟩

/-- A panic ends the supply, and what was made until then is idle. -/
theorem replenishAll_idle (l : Locked φ) (sizes : List Size) :
    ∃ made, (l.replenishAll sizes).2.pool.available = l.pool.available ++ made ∧
      l.device.Supply sizes made := by
  induction sizes generalizing l with
  | nil => exact ⟨[], (List.append_nil _).symm, .nothing _⟩
  | cons size sizes ih =>
    obtain ⟨hbuilt, first, hfirst, hs⟩ := l.replenish_spec size .resizeFailed
    rw [replenishAll_cons]
    split
    · exact ⟨first, hfirst, by simpa using hs.append (.nothing sizes)⟩
    · obtain ⟨rest, hrest, hr⟩ := ih (l.replenish size .resizeFailed).2
      refine ⟨first ++ rest, by rw [hrest, hfirst, List.append_assoc], ?_⟩
      exact hs.append (hr.mono hbuilt)

omit [Allocator φ] in
theorem evict_idle (l : Locked φ) (maxAge : UInt32) :
    (l.evict maxAge).pool.available = l.pool.available.filterMap (Surface.tick? maxAge) := by
  unfold evict
  dsimp only
  split <;> rfl

omit [Allocator φ] in
theorem evict_built (l : Locked φ) (maxAge : UInt32) :
    (l.evict maxAge).device.built = l.device.built := by
  have h : ∀ xs, (l.device.releaseAll xs).built = l.device.built := fun xs =>
    (l.device.requests_releaseAll xs).2
  unfold evict
  dsimp only
  split
  · exact h _
  · exact h _

theorem shrinkFirst_idle (l : Locked φ) :
    ∃ made, l.shrinkFirst.2.pool.available = l.pool.available.eraseP Surface.shrinkable ++ made ∧
      l.device.Supply
        ((l.pool.available.find? Surface.shrinkable).toList.map fun x => x.size) made := by
  unfold shrinkFirst
  split
  · rename_i hnone
    rw [List.eraseP_of_forall_not (List.find?_eq_none.mp hnone)]
    exact ⟨[], (List.append_nil _).symm, .nothing _⟩
  · rename_i x hx
    let rest : Locked φ :=
      { l with pool := { l.pool with available := l.pool.available.eraseP Surface.shrinkable } }
    let freed : Locked φ := (rest.log (.shrinking x.id x.size)).release x
    have hbuilt : l.device.built ≤ freed.device.built := Nat.le_refl _
    obtain ⟨-, made, hidle, hs⟩ := freed.replenish_spec x.size .shrinkFailed
    rw [hx]
    exact ⟨made, hidle, hs.mono hbuilt⟩

/-- After a maintenance tick the idle surfaces are those that stand it, without the first that can
    be made smaller, and at most one in its place. -/
theorem collect_idle (l : Locked φ) (maxAge : UInt32) :
    ∃ made, (l.collect maxAge).2.pool.available =
        (l.pool.available.filterMap (Surface.tick? maxAge)).eraseP Surface.shrinkable ++ made ∧
      l.device.Supply (((l.pool.available.filterMap (Surface.tick? maxAge)).find?
        Surface.shrinkable).toList.map fun x => x.size) made := by
  obtain ⟨made, hidle, hs⟩ := (l.evict maxAge).shrinkFirst_idle
  rw [evict_idle] at hidle hs
  refine ⟨made, ?_, hs.mono (Nat.le_of_eq (l.evict_built maxAge).symm)⟩
  rw [← hidle, collect_eq]
  dsimp only
  split <;> rfl

theorem shrink_idle (l : Locked φ) :
    ∃ made, l.shrink.2.pool.available =
        (l.pool.available.filter fun x => !x.oversized) ++ made ∧
      l.device.Supply l.largeSizes made := by
  obtain ⟨made, hidle, hs⟩ := l.withoutLarge.replenishAll_idle l.largeSizes
  have hbuilt : l.withoutLarge.device.built = l.device.built :=
    (l.device.requests_releaseAll _).2
  refine ⟨made, ?_, hs.mono (Nat.le_of_eq hbuilt.symm)⟩
  rw [shrink_eq]
  dsimp only
  split
  · exact hidle
  · exact hidle

end Locked

end SurfaceReuse
