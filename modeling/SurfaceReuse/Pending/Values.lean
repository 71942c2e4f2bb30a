import SurfaceReuse.Pending.Lemmas

set_option autoImplicit false

/-!
The parked values of a pending map, and how operations on the map add to them and take from them.
-/

namespace SurfaceReuse.Pending

variable {α : Type}

/-- A tracked id stands in one place of the list of slots. -/
theorem slots_of_get? (p : Pending α) (id : BufferId) (slot : Slot α) (h : p.get? id = some slot) :
    ∃ front back, p.slots = front ++ (id, slot) :: back ∧
      (∀ e ∈ front, e.1 ≠ id) ∧ ∀ e ∈ back, e.1 ≠ id := by
  obtain ⟨front, back, hs, hfront⟩ := List.lookup_eq_some_iff.mp h
  refine ⟨front, back, hs, ?_, ?_⟩
  · intro e he heq
    exact absurd (hfront e he) (by simp [heq])
  · intro e he heq
    have hn := p.nodup
    rw [hs, List.map_append, List.map_cons, List.nodup_append, List.nodup_cons] at hn
    exact hn.2.1.1 (List.mem_map.mpr ⟨e, he, heq⟩)

theorem mem_slots_iff (p : Pending α) (id : BufferId) (slot : Slot α) :
    (id, slot) ∈ p.slots ↔ p.get? id = some slot := by
  constructor
  · intro h
    obtain ⟨front, back, hs⟩ := List.append_of_mem h
    have hn := p.nodup
    rw [hs, List.map_append, List.map_cons, List.nodup_append] at hn
    refine List.lookup_eq_some_iff.mpr ⟨front, back, hs, fun e he => ?_⟩
    have hne := hn.2.2 e.1 (List.mem_map.mpr ⟨e, he, rfl⟩) id List.mem_cons_self
    exact bne_iff_ne.mpr (Ne.symm hne)
  · intro h
    obtain ⟨front, back, hs, -, -⟩ := p.slots_of_get? id slot h
    rw [hs]
    exact List.mem_append_right _ List.mem_cons_self

theorem mem_values_iff (p : Pending α) (x : α) :
    x ∈ p.values ↔ ∃ id, p.get? id = some (.parked x) := by
  constructor
  · intro h
    obtain ⟨⟨id, slot⟩, hs, hv⟩ := List.mem_filterMap.mp h
    refine ⟨id, (p.mem_slots_iff id _).mp ?_⟩
    cases slot with
    | reserved => exact absurd hv (by simp [Slot.value?])
    | parked value =>
      obtain rfl : value = x := Option.some.inj hv
      exact hs
  · rintro ⟨id, h⟩
    exact List.mem_filterMap.mpr ⟨(id, .parked x), (p.mem_slots_iff id _).mpr h, rfl⟩

@[simp] theorem values_reserve (p : Pending α) (id : BufferId) :
    (p.reserve id).2.values = p.values := by
  unfold reserve
  split <;> rfl

theorem values_map {β : Type} (p : Pending α) (f : α → β) : (p.map f).values = p.values.map f := by
  unfold values map mapSlots
  rw [List.filterMap_map, List.map_filterMap]
  congr
  funext ⟨id, slot⟩
  cases slot <;> rfl

/-- What is erased with an id is the value that was parked under it, if there was one. -/
theorem values_erase (p : Pending α) (id : BufferId) (slot : Slot α) (h : p.get? id = some slot) :
    (slot.value?.toList ++ (p.erase id).values).Perm p.values := by
  obtain ⟨front, back, hs, hfront, hback⟩ := p.slots_of_get? id slot h
  have herase : (p.erase id).slots = front ++ back := by
    change p.slots.filter _ = _
    rw [hs, List.filter_append, List.filter_cons_of_neg (by simp),
      List.filter_eq_self.mpr (by simpa using hfront),
      List.filter_eq_self.mpr (by simpa using hback)]
  unfold values
  rw [herase, hs, List.filterMap_append, List.filterMap_append, List.filterMap_cons]
  cases slot with
  | reserved => exact List.Perm.refl _
  | parked value =>
    rw [Slot.value?, Option.toList_some, List.singleton_append]
    exact List.perm_middle.symm

theorem values_park (p : Pending α) (id : BufferId) (value : α) (slot : Slot α)
    (h : p.get? id = some slot) :
    (slot.value?.toList ++ (p.park id value).2.values).Perm (value :: p.values) := by
  obtain ⟨front, back, hs, hfront, hback⟩ := p.slots_of_get? id slot h
  let put := fun e : BufferId × Slot α => (e.1, if e.1 = id then Slot.parked value else e.2)
  have hpark : (p.park id value).2.slots = front ++ (id, .parked value) :: back := by
    unfold park
    rw [h]
    change p.slots.map put = _
    rw [hs, List.map_append, List.map_cons,
      List.map_congr_left (g := fun e => e) fun e he => by simp [put, hfront e he],
      List.map_congr_left (l := back) (g := fun e => e) fun e he => by simp [put, hback e he]]
    simp [put]
  unfold values
  rw [hpark, hs, List.filterMap_append, List.filterMap_append, List.filterMap_cons,
    List.filterMap_cons]
  cases slot with
  | reserved =>
    change (_ ++ value :: _).Perm (value :: (_ ++ _))
    exact List.perm_middle
  | parked old =>
    rw [Slot.value?, Option.toList_some, List.singleton_append]
    refine (List.Perm.cons old List.perm_middle).trans ?_
    exact (List.Perm.swap _ _ _).trans (List.Perm.cons _ List.perm_middle.symm)

end SurfaceReuse.Pending
