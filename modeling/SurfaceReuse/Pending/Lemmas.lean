import SurfaceReuse.Pending.Basic

set_option autoImplicit false

/-!
What each operation on a pending map does to the slot of an id. The slots of other ids are never
touched.
-/

namespace SurfaceReuse.Pending

variable {α : Type}

@[ext] theorem ext {p q : Pending α} (h : p.slots = q.slots) : p = q := by
  cases p; cases q; cases h; rfl

theorem lookup_cons_eq (entry : BufferId × Slot α) (slots : List (BufferId × Slot α))
    (k : BufferId) :
    (entry :: slots).lookup k = if k = entry.1 then some entry.2 else slots.lookup k := by
  rw [List.lookup_cons]
  by_cases h : k = entry.1
  · rw [if_pos h, beq_iff_eq.mpr h]
  · rw [if_neg h, beq_eq_false_iff_ne.mpr h]

theorem lookup_isSome_iff (slots : List (BufferId × Slot α)) (id : BufferId) :
    (slots.lookup id).isSome = true ↔ id ∈ slots.map Prod.fst := by
  induction slots with
  | nil => simp
  | cons entry slots ih =>
    rw [lookup_cons_eq, List.map_cons, List.mem_cons]
    split
    · rename_i h
      simp [h]
    · rename_i h
      simp [h, ih]

theorem get?_isSome_iff (p : Pending α) (id : BufferId) :
    (p.get? id).isSome = true ↔ id ∈ p.ids :=
  lookup_isSome_iff p.slots id

theorem get?_eq_none_iff (p : Pending α) (id : BufferId) : p.get? id = none ↔ id ∉ p.ids := by
  rw [← get?_isSome_iff, Option.not_isSome_iff_eq_none]

theorem contains_iff (p : Pending α) (id : BufferId) : p.contains id = true ↔ id ∈ p.ids := by
  unfold contains
  exact List.contains_iff_mem

theorem contains_iff_get? (p : Pending α) (id : BufferId) :
    p.contains id = true ↔ p.get? id ≠ none := by
  rw [contains_iff, ← get?_isSome_iff, Option.isSome_iff_ne_none]

theorem get?_of_not_contains {p : Pending α} {id : BufferId} (h : p.contains id = false) :
    p.get? id = none := by
  rw [get?_eq_none_iff, ← contains_iff, h]
  exact Bool.false_ne_true

theorem not_contains_of_get? {p : Pending α} {id : BufferId} (h : p.get? id = none) :
    p.contains id = false := by
  rw [← Bool.not_eq_true, contains_iff_get?]
  exact not_not_intro h

theorem get?_insert (p : Pending α) (id : BufferId) (h : id ∉ p.ids) (k : BufferId) :
    (p.insert id h).get? k = if k = id then some .reserved else p.get? k :=
  lookup_cons_eq (id, .reserved) p.slots k

theorem lookup_map {β : Type} (f : BufferId → Slot α → Slot β) (slots : List (BufferId × Slot α))
    (k : BufferId) :
    (slots.map fun slot => (slot.1, f slot.1 slot.2)).lookup k = (slots.lookup k).map (f k) := by
  induction slots with
  | nil => rfl
  | cons entry slots ih =>
    rw [List.map_cons, lookup_cons_eq, lookup_cons_eq, ih]
    split
    · rename_i h
      rw [h]
      rfl
    · rfl

theorem get?_mapSlots {β : Type} (p : Pending α) (f : BufferId → Slot α → Slot β) (k : BufferId) :
    (p.mapSlots f).get? k = (p.get? k).map (f k) :=
  lookup_map f p.slots k

theorem lookup_filter_ne (slots : List (BufferId × Slot α)) (id k : BufferId) :
    (slots.filter fun slot => slot.1 ≠ id).lookup k = if k = id then none else slots.lookup k := by
  induction slots with
  | nil => simp
  | cons entry slots ih =>
    rw [lookup_cons_eq]
    by_cases he : entry.1 = id
    · rw [List.filter_cons_of_neg (by simpa using he), ih, he]
      split <;> rfl
    · rw [List.filter_cons_of_pos (by simpa using he), lookup_cons_eq, ih]
      split
      · rename_i hk
        rw [if_neg (hk ▸ he)]
      · rfl

theorem get?_erase (p : Pending α) (id k : BufferId) :
    (p.erase id).get? k = if k = id then none else p.get? k :=
  lookup_filter_ne p.slots id k

theorem reserve_fst (p : Pending α) (id : BufferId) : (p.reserve id).1 = !p.contains id := by
  unfold reserve
  split
  · rename_i h
    rw [(contains_iff p id).mpr h]
    rfl
  · rename_i h
    have := mt (contains_iff p id).mp h
    rw [Bool.not_eq_true] at this
    rw [this]
    rfl

theorem reserve_of_contains (p : Pending α) (id : BufferId) (h : p.contains id = true) :
    p.reserve id = (false, p) := by
  unfold reserve
  exact dif_pos ((p.contains_iff id).mp h)

theorem get?_reserve (p : Pending α) (id k : BufferId) :
    (p.reserve id).2.get? k =
      if k = id then some ((p.get? id).getD .reserved) else p.get? k := by
  unfold reserve
  split
  · rename_i h
    obtain ⟨slot, hs⟩ := Option.isSome_iff_exists.mp ((get?_isSome_iff p id).mpr h)
    by_cases hk : k = id
    · simp [hk, hs]
    · simp [hk]
  · rename_i h
    rw [get?_insert, (get?_eq_none_iff p id).mpr h]
    rfl

theorem get?_reserve_self {p : Pending α} {id : BufferId} (h : p.contains id = false) :
    (p.reserve id).2.get? id = some .reserved := by
  rw [get?_reserve, if_pos rfl, get?_of_not_contains h]
  rfl

theorem get?_park (p : Pending α) (id : BufferId) (value : α) (k : BufferId) :
    (p.park id value).2.get? k =
      if k = id then (p.get? id).map fun _ => .parked value else p.get? k := by
  unfold park
  split
  · rename_i h
    by_cases hk : k = id
    · simp [hk, h]
    · simp [hk]
  · rename_i slot h
    dsimp only
    rw [get?_mapSlots]
    by_cases hk : k = id
    · simp [hk]
    · cases p.get? k <;> simp [hk]

theorem get?_complete (p : Pending α) (id k : BufferId) :
    (p.complete id).2.get? k = if k = id then none else p.get? k := by
  unfold complete
  split
  · rename_i h
    by_cases hk : k = id
    · simp [hk, h]
    · simp [hk]
  · exact get?_erase p id k
  · exact get?_erase p id k

theorem erase_of_not_contains {p : Pending α} {id : BufferId} (h : p.contains id = false) :
    p.erase id = p := by
  have hne : ∀ slot ∈ p.slots, slot.1 ≠ id := by
    rintro slot hs rfl
    have hc := (p.contains_iff slot.1).mpr (List.mem_map_of_mem hs)
    exact absurd (h.symm.trans hc) nofun
  exact ext (List.filter_eq_self.mpr fun slot hs => decide_eq_true (hne slot hs))

/-- A reservation that is given back leaves no trace. -/
theorem erase_reserve {p : Pending α} {id : BufferId} (h : p.contains id = false) :
    (p.reserve id).2.erase id = p := by
  have hid : id ∉ p.ids := fun hm => absurd (h.symm.trans ((p.contains_iff id).mpr hm)) nofun
  unfold reserve
  rw [dif_neg hid]
  have hdrop : (p.insert id hid).erase id = p.erase id := ext (by simp [erase, insert])
  exact hdrop.trans (erase_of_not_contains h)

theorem erase_park (p : Pending α) (id : BufferId) (value : α) :
    (p.park id value).2.erase id = p.erase id := by
  unfold park
  split
  · rfl
  · refine ext ?_
    change (p.slots.map _).filter _ = p.slots.filter _
    induction p.slots with
    | nil => rfl
    | cons slot slots ih =>
      rw [List.map_cons]
      by_cases h : slot.1 = id
      · rw [List.filter_cons_of_neg (by simpa using h), List.filter_cons_of_neg (by simpa using h),
          ih]
      · rw [List.filter_cons_of_pos (by simpa using h), List.filter_cons_of_pos (by simpa using h),
          ih]
        dsimp only
        rw [if_neg h]

theorem contains_map {β : Type} (p : Pending α) (f : α → β) (id : BufferId) :
    (p.map f).contains id = p.contains id := by
  change ((p.slots.map _).map Prod.fst).contains id = (p.slots.map Prod.fst).contains id
  rw [List.map_map]
  rfl

section Map

variable {β : Type} (p : Pending α) (f : α → β) (id : BufferId)

theorem map_map {γ : Type} (g : β → γ) : (p.map f).map g = p.map (g ∘ f) := by
  ext1
  simp only [map, mapSlots, List.map_map]
  refine List.map_congr_left fun entry _ => ?_
  obtain ⟨k, slot⟩ := entry
  cases slot <;> rfl

theorem erase_map : (p.map f).erase id = (p.erase id).map f := by
  ext1
  change (p.slots.map _).filter _ = (p.slots.filter _).map _
  rw [List.filter_map]
  rfl

theorem park_map (value : α) : ((p.map f).park id (f value)).2 = (p.park id value).2.map f := by
  have hget : (p.map f).get? id = (p.get? id).map (Slot.map f) := get?_mapSlots p _ id
  unfold park
  rw [hget]
  cases p.get? id with
  | none => rfl
  | some slot =>
    ext1
    simp only [Option.map_some, map, mapSlots, List.map_map]
    refine List.map_congr_left fun entry _ => ?_
    by_cases h : entry.1 = id <;> simp [h, Slot.map]

theorem reserve_map : ((p.map f).reserve id).2 = (p.reserve id).2.map f := by
  have hids : (p.map f).ids = p.ids := by simp [ids, map, mapSlots]
  unfold reserve
  by_cases h : id ∈ p.ids
  · rw [dif_pos h, dif_pos (hids ▸ h)]
  · rw [dif_neg h, dif_neg (hids ▸ h)]
    rfl

end Map

theorem complete_fst (p : Pending α) (id : BufferId) :
    (p.complete id).1 = match p.get? id with
      | none => .untracked
      | some .reserved => .early
      | some (.parked value) => .ready value := by
  unfold complete
  cases p.get? id with
  | none => rfl
  | some slot => cases slot <;> rfl

end SurfaceReuse.Pending
