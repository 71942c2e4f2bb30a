import Mathlib.Data.List.Nodup
import SurfaceReuse.Proofs.Places
import SurfaceReuse.Scenario.Faults

set_option autoImplicit false

/-!
The cap on idle surfaces. Only the way back into the pool looks at it; a replacement takes the room
of a surface that left before it was made. So the cap holds in every state, and it is the surface
on its way back that has to go when there is no room.

What a panic of the device leaves behind is the state in which the device was asked. As the device
may panic at any request, the states in the midst of a maintenance tick are states like others.
-/

namespace SurfaceReuse

variable {φ : Type}

theorem Config.fault?_eq_none_iff (c : Config) :
    c.fault? = none ↔ 1 ≤ c.maxSurfaces ∧ c.maxSurfaces ≤ surfaceLimit ∧ 1 ≤ c.maxAge := by
  have hage : 1 ≤ c.maxAge ↔ c.maxAge ≠ 0 := by
    rw [UInt32.le_iff_toNat_le, ne_eq, ← UInt32.toNat_inj]
    change 1 ≤ c.maxAge.toNat ↔ ¬c.maxAge.toNat = 0
    omega
  rw [hage]
  unfold fault?
  split
  · rename_i h
    simp [h]
  split
  · rename_i h
    simp only [reduceCtorEq, false_iff]
    omega
  split
  · rename_i h
    simp [h]
  · rename_i h
    simp only [true_iff]
    exact ⟨by omega, by omega, h⟩

namespace Places

variable [Allocator φ] {s : System φ} {m : Move φ} {p p' : Places}

theorem Step.room (h : Step s m p p') (hp : p.idle.length ≤ p.capacity) :
    p'.idle.length ≤ p'.capacity := by
  cases h with
  | gone | made | handed | submitted | parted | built => exact hp
  | found => exact Nat.le_trans List.length_eraseP_le hp
  | recycled hr hv hroom =>
    simp only [List.length_append, List.length_singleton]
    omega
  | @collected stay made hm hstay hs =>
    -- The one that goes to be made anew leaves room for the one that is made.
    have hticked : stay.length ≤ p.idle.length := hstay ▸ List.length_filterMap_le _ _
    have hrest := (find_eraseP_perm Surface.shrinkable stay).length_eq
    have hmade := hs.length_le
    simp only [List.length_append, List.length_map] at hrest hmade ⊢
    omega
  | shrunk hm hs =>
    have hrest := (List.filter_append_perm (fun x : Surface => x.oversized) p.idle).length_eq
    have hmade := hs.length_le
    simp only [List.length_append, List.length_map] at hrest hmade ⊢
    omega
  | touched =>
    rw [List.length_map]
    exact hp

/-- An idle surface that was not idle before came back from its wait, or it was made in the place
    of an oversized one. It can be used. -/
theorem Step.entered (h : Step s m p p') {x : Surface} (hx : x ∈ p'.idle)
    (hnew : x.serial ∉ p.idle.map Surface.serial) :
    x.valid = true ∧
      (s.Recycles m x ∨
        (m = .collect ∨ m = .shrink) ∧
          ∃ y ∈ p.idle, y.oversized = true ∧ s.device.Fresh y.size x) := by
  have hold : x ∉ p.idle := fun hm => hnew (List.mem_map_of_mem hm)
  cases h with
  | gone | made | handed | submitted | parted | built => exact absurd hx hold
  | found => exact absurd (List.mem_of_mem_eraseP hx) hold
  | recycled hr hv =>
    rcases List.mem_append.mp hx with hx | hx
    · exact absurd hx hold
    · obtain rfl := List.mem_singleton.mp hx
      exact ⟨hv, .inl hr⟩
  | @collected stay made hm hstay hs =>
    subst hstay
    rcases List.mem_append.mp hx with hx | hx
    · obtain ⟨y, hy, -, -, rfl⟩ := Surface.mem_ticked (List.mem_of_mem_eraseP hx)
      exact absurd (List.mem_map_of_mem hy) hnew
    · obtain ⟨size, hsize, hfresh⟩ := hs.fresh hx
      obtain ⟨z, hz, rfl⟩ := List.mem_map.mp hsize
      have hz' := Option.mem_toList.mp hz
      obtain ⟨y, hy, -, -, rfl⟩ := Surface.mem_ticked (List.mem_of_find?_eq_some hz')
      have hlarge : y.oversized = true :=
        (Bool.and_eq_true_iff.mp (List.find?_some (p := Surface.shrinkable) hz')).1
      exact ⟨hfresh.valid, .inr ⟨.inl hm, y, hy, hlarge, hfresh⟩⟩
  | shrunk hm hs =>
    rcases List.mem_append.mp hx with hx | hx
    · exact absurd (List.mem_of_mem_filter hx) hold
    · obtain ⟨size, hsize, hfresh⟩ := hs.fresh hx
      obtain ⟨y, hy, rfl⟩ := List.mem_map.mp hsize
      obtain ⟨hy, hlarge⟩ := List.mem_filter.mp hy
      exact ⟨hfresh.valid, .inr ⟨.inr hm, y, hy, hlarge, hfresh⟩⟩
  | touched =>
    obtain ⟨y, hy, rfl⟩ := List.mem_map.mp hx
    rw [Surface.touch_serial] at hnew
    exact absurd (List.mem_map_of_mem hy) hnew

end Places

namespace System

variable {s : System φ} {o : OpenPool}

theorem available_eq (ho : s.current = some o) : s.available = o.pool.available := by
  unfold available
  rw [ho]
  rfl

variable [Allocator φ] {m : Move φ} {x : Surface}

omit [Allocator φ] in
theorem fire_of_mem (numbered : s.Numbered) {k : Hook} (hk : k ∈ s.hooks) :
    s.fire k.number = (.done, ({ s with hooks := s.hooks.erase k } : System φ).deliver k) := by
  have hfind : s.hooks.find? (fun h => h.number == k.number) = some k := by
    obtain ⟨h, hf⟩ := Option.isSome_iff_exists.mp
      (List.find?_isSome (p := fun h : Hook => h.number == k.number).mpr ⟨k, hk, by simp⟩)
    have hn : h.number = k.number := by simpa using List.find?_some hf
    rw [hf, List.inj_on_of_nodup_map numbered.nodup (List.mem_of_find?_eq_some hf) hk hn]
  unfold fire
  rw [hfind]

/-- Where a wait ends, the slot goes, unless it is gone already, and the pool takes the surface
    back. -/
theorem Recycles.step_eq (numbered : s.Numbered) (ho : s.current = some o) (hr : s.Recycles m x) :
    ∃ (t : System φ) (id : BufferId), (s.step m).2 =
      t.leave o (((s.inside o).withPending (o.pool.pending.erase id)).recycle x) := by
  obtain ⟨o', ho', hp, h⟩ := hr
  obtain rfl : o = o' := Option.some.inj (ho.symm.trans ho')
  rcases h with ⟨k, hk, rfl, hg, hslot⟩ | ⟨id, n, calls, rfl, hc, hslot⟩
  · let t : System φ := { s with hooks := s.hooks.erase k }
    refine ⟨t, k.id, ?_⟩
    have hdeliver : t.deliver k = t.leave o ((s.inside o).complete k.id) :=
      deliver_open (s := t) ho hp hg
    change (s.fire k.number).2 = _
    rw [fire_of_mem numbered hk]
    exact hdeliver.trans (congrArg (t.leave o) (Locked.complete_of_parked hslot))
  · refine ⟨{ s with calls }, id, ?_⟩
    have hgone := Pending.erase_of_not_contains (Pending.not_contains_of_get? hslot)
    change s.registered.2 = _
    rw [registered_open ho hp hc, Locked.settle_of_none (l := s.inside o) hslot, hgone]
    rfl

/-- A surface that the pool takes back goes to the back of the idle ones, or it ceases to exist
    and they stay as they are. -/
theorem Recycles.outcome (sound : s.Sound) (ho : s.current = some o) (hr : s.Recycles m x) :
    (x.valid = true ∧ s.available.length < o.pool.capacity ∧
      (s.step m).2.available = s.available ++ [x]) ∨
    ((x.valid = false ∨ o.pool.capacity ≤ s.available.length) ∧
      (s.step m).2.available = s.available ∧ x.serial ∉ (s.step m).2.device.alive) := by
  obtain ⟨t, id, he⟩ := hr.step_eq sound.numbered ho
  let l := (s.inside o).withPending (o.pool.pending.erase id)
  rw [he, available_eq ho]
  change (_ ∧ _ ∧ (l.recycle x).pool.available = _) ∨
    (_ ∧ (l.recycle x).pool.available = _ ∧ _ ∉ (l.recycle x).device.alive)
  rcases l.recycle_cases x with ⟨hv, hfull, ha⟩ | ⟨hv, ha, hd⟩
  · exact .inl ⟨hv, l.pool.isFull_eq_false_iff.mp hfull, ha⟩
  · refine .inr ⟨hv.imp_right fun hf => of_decide_eq_true hf, ha, ?_⟩
    rw [hd]
    exact sound.alive_nodup.not_mem_erase

theorem openPool_accepts (hc : s.calls = []) (config : Config) :
    (s.step (.openPool (some config))).1 = .done ↔ config.fault? = none := by
  change (s.openPool (some config)).1 = .done ↔ _
  unfold openPool
  rw [hc]
  cases h : config.fault? with
  | none => simp [h]
  | some fault => simp [h]

end System

namespace Life

variable [Allocator φ] {law : List (Moment φ) → Moment φ → Prop} {past : List (Moment φ)}
  {s : System φ}

theorem configured (life : Life law past s) :
    ∃ config o, past.head?.map Moment.move = some (.openPool config) ∧ s.current = some o ∧
      o.config = config.getD {} ∧ o.config.fault? = none ∧
      o.pool.capacity = o.config.maxSurfaces ∧
      o.pool.available.length ≤ o.config.maxSurfaces := by
  induction life with
  | @opened s config hs ok =>
    obtain ⟨-, hfault, journal, he⟩ := opening ok
    refine ⟨config, _, rfl, congrArg System.current he, rfl, hfault, rfl, Nat.zero_le _⟩
  | @move past s life m stays lawful ih =>
    obtain ⟨config, o, hfirst, ho, hconfig, hfault, hcap, hle⟩ := ih
    obtain ⟨o', ho', hstep⟩ := System.places_step ho m stays
    obtain ⟨hc, hcap'⟩ : o'.config = o.config ∧ o'.pool.capacity = o.pool.capacity := hstep.limits
    have hroom : o'.pool.available.length ≤ o'.pool.capacity := by
      refine hstep.room ?_
      change o.pool.available.length ≤ o.pool.capacity
      omega
    refine ⟨config, o', ?_, ho', hc.trans hconfig, hc ▸ hfault, ?_, ?_⟩
    · rw [List.head?_append, ← hfirst]
      cases past with
      | nil => exact absurd hfirst nofun
      | cons first rest => rfl
    · rw [hcap', hcap, hc]
    · rw [hcap', hcap, ← hc] at hroom
      exact hroom

end Life

/-- A configuration is accepted exactly if its limits are in range, and then at no time in the life
    of the pool are there more idle surfaces than it allows. Surfaces become idle only when their
    wait ends or in the place of an oversized idle surface, and only if they are valid; one whose
    wait ends when there is no room ceases to exist, and the idle surfaces stay as they are. -/
theorem idle_within_cap [Allocator φ] {law : List (Moment φ) → Moment φ → Prop}
    {past : List (Moment φ)} {s : System φ} (life : Life law past s) :
    (∀ (t : System φ) (config : Config), t.calls = [] →
      (t.step (.openPool none)).1 = .done ∧
      ((t.step (.openPool (some config))).1 = .done ↔
        1 ≤ config.maxSurfaces ∧ config.maxSurfaces ≤ 256 ∧ 1 ≤ config.maxAge)) ∧
    ∃ config o, past.head?.map Moment.move = some (.openPool config) ∧ s.current = some o ∧
      o.config = config.getD {} ∧ s.available.length ≤ o.config.maxSurfaces ∧
      ∀ m : Move φ, m.staysOpen = true →
        (∀ x ∈ (s.step m).2.available, x.serial ∉ s.available.map Surface.serial →
          x.valid = true ∧
            (s.Recycles m x ∨
              (m = .collect ∨ m = .shrink) ∧
                ∃ y ∈ s.available, y.oversized = true ∧ s.device.Fresh y.size x)) ∧
        ∀ x, s.Recycles m x →
          (x.valid = true → s.available.length < o.config.maxSurfaces →
            (s.step m).2.available = s.available ++ [x]) ∧
          (x.valid = false ∨ s.available.length = o.config.maxSurfaces →
            (s.step m).2.available = s.available ∧ x.serial ∉ (s.step m).2.device.alive) := by
  refine ⟨fun t config hc => ⟨?_, ?_⟩, ?_⟩
  · change (t.openPool none).1 = .done
    unfold System.openPool
    rw [hc]
    rfl
  · exact (System.openPool_accepts hc config).trans config.fault?_eq_none_iff
  obtain ⟨config, o, hfirst, ho, hconfig, hfault, hcap, hle⟩ := life.configured
  have hidle := System.available_eq ho
  refine ⟨config, o, hfirst, ho, hconfig, by rw [hidle]; exact hle, fun m stays => ⟨?_, ?_⟩⟩
  · obtain ⟨o', ho', hstep⟩ := System.places_step ho m stays
    rw [System.available_eq ho', hidle]
    exact fun x hx hnew => hstep.entered hx hnew
  · intro x hr
    rw [← hcap]
    rcases hr.outcome life.sound ho with ⟨hv, hroom, ha⟩ | ⟨hv, ha, hgone⟩
    · refine ⟨fun _ _ => ha, fun h => ?_⟩
      rcases h with h | h
      · exact absurd (hv.symm.trans h) nofun
      · omega
    · refine ⟨fun hvalid hroom => ?_, fun _ => ⟨ha, hgone⟩⟩
      rcases hv with hv | hv
      · exact absurd (hvalid.symm.trans hv) nofun
      · omega

open Scenario in
/-- With room for one idle surface, the second one whose wait ends goes down. -/
theorem idle_within_cap_of_two :
    ∃ (past : List (Moment Faults)) (s : System Faults) (x : Surface),
      Life (fun _ _ => True) past s ∧ s.available.map Surface.serial = [1] ∧ x.serial = 2 ∧
      s.Recycles (.fire 2) x ∧ s.available.length ≤ 1 ∧
      (s.step (.fire 2)).2.available = s.available ∧
      2 ∉ (s.step (.fire 2)).2.device.alive := by
  let law : List (Moment Faults) → Moment Faults → Prop := fun _ _ => True
  have opened : Life law _ _ :=
    .opened (some { maxSurfaces := 1 }) (.start ({} : Faults) {} {}) rfl
  have first := (opened.move (.acquire ⟨8, 8⟩) rfl trivial).move (.flushed true) rfl trivial
  have both := (first.move (.acquire ⟨8, 8⟩) rfl trivial).move (.flushed true) rfl trivial
  have one := (both.move (.submit 1) rfl trivial).move .registered rfl trivial
  have two := (one.move (.submit 2) rfl trivial).move .registered rfl trivial
  have life := two.move (.fire 1) rfl trivial
  obtain ⟨-, config, o, hfirst, ho, hconfig, hle, hmove⟩ := idle_within_cap life
  obtain rfl := Option.some.inj ho
  let last : Surface := ⟨{ id := ⟨2⟩, size := ⟨8, 8⟩ }, 2⟩
  have hback := fun hr => ((hmove (.fire 2) rfl).2 last hr).2 (.inr rfl)
  refine ⟨_, _, last, life, rfl, rfl, ?waits, hle, (hback ?waits).1, (hback ?waits).2⟩
  exact ⟨_, rfl, rfl, .inl ⟨⟨2, 1, ⟨2⟩⟩, by decide, rfl, rfl, rfl⟩⟩

end SurfaceReuse
