import SurfaceReuse.Proofs.CacheBound

set_option autoImplicit false

/-!
The order of the idle surfaces. New ones stand behind those that were there, and nobody overtakes,
so whoever stands further in front has been idle for longer.
-/

namespace SurfaceReuse

variable {φ : Type}

/-- The serial numbers of the idle surfaces, in their order. -/
def System.row (s : System φ) : List Nat :=
  s.available.map Surface.serial

/-- What is left of the row stands as before, and what is new stands behind it. -/
def QueuedBehind (before after : List Nat) : Prop :=
  ∃ kept fresh, after = kept ++ fresh ∧ kept.Sublist before ∧ ∀ n ∈ fresh, n ∉ before

/-- For how many moves up to now the surface has been idle without a break. -/
def idleFor (past : List (Moment φ)) (n : Nat) : Nat :=
  (past.reverse.takeWhile fun m => m.after.row.contains n).length

theorem sublist_of_subset {α : Type} {l xs ys : List α} (hn : l.Nodup) (hx : xs.Sublist l)
    (hy : ys.Sublist l) (h : ∀ x ∈ xs, x ∈ ys) : xs.Sublist ys := by
  induction hy generalizing xs with
  | slnil => exact hx
  | @cons ys l a hy ih =>
    obtain ⟨ha, hn⟩ := List.nodup_cons.mp hn
    cases hx with
    | cons _ hx => exact ih hn hx h
    | cons_cons _ hx => exact absurd (hy.subset (h a List.mem_cons_self)) ha
  | @cons_cons ys l a hy ih =>
    obtain ⟨ha, hn⟩ := List.nodup_cons.mp hn
    have hrest : ∀ zs : List α, zs.Sublist l → (∀ z ∈ zs, z ∈ a :: ys) → zs.Sublist ys := by
      refine fun zs hz hsub => ih hn hz fun z hm => ?_
      exact (List.mem_cons.mp (hsub z hm)).resolve_left fun he => ha (he ▸ hz.subset hm)
    cases hx with
    | cons _ hx => exact (hrest _ hx h).cons a
    | cons_cons _ hx =>
      exact (hrest _ hx fun z hz => h z (List.mem_cons_of_mem a hz)).cons_cons a

namespace QueuedBehind

variable {before after : List Nat}

theorem of_sublist (h : after.Sublist before) : QueuedBehind before after :=
  ⟨after, [], (List.append_nil _).symm, h, nofun⟩

theorem keeps (h : QueuedBehind before after) (hn : before.Nodup) {ns : List Nat}
    (hns : ns.Sublist before) (hstay : ∀ n ∈ ns, n ∈ after) : ns.Sublist after := by
  obtain ⟨kept, fresh, rfl, hkept, hfresh⟩ := h
  have hsub : ∀ n ∈ ns, n ∈ kept := fun n hm =>
    (List.mem_append.mp (hstay n hm)).resolve_right fun hf => hfresh n hf (hns.subset hm)
  exact (sublist_of_subset hn hns hkept hsub).trans (List.sublist_append_left _ _)

end QueuedBehind

theorem idleFor_append (past : List (Moment φ)) (m : Moment φ) (n : Nat) :
    idleFor (past ++ [m]) n = if n ∈ m.after.row then idleFor past n + 1 else 0 := by
  unfold idleFor
  rw [List.reverse_append, List.reverse_singleton, List.singleton_append, List.takeWhile_cons]
  by_cases h : n ∈ m.after.row <;> simp [h]

theorem Places.Step.queued [Allocator φ] {s : System φ} {m : Move φ} {p p' : Places}
    (h : Places.Step s m p p')
    (haway : ∀ x ∈ p.away, x.serial ∉ p.idle.map Surface.serial)
    (hnew : ∀ sizes made, s.device.Supply sizes made →
      ∀ n ∈ made.map Surface.serial, n ∉ p.idle.map Surface.serial) :
    QueuedBehind (p.idle.map Surface.serial) (p'.idle.map Surface.serial) := by
  cases h with
  | gone | made | handed | submitted | parted | built => exact .of_sublist (List.Sublist.refl _)
  | found => exact .of_sublist (List.eraseP_sublist.map _)
  | @recycled x away hr hv hroom hperm =>
    refine ⟨_, [x.serial], List.map_append, List.Sublist.refl _, fun n hn => ?_⟩
    obtain rfl := List.mem_singleton.mp hn
    exact haway x (hperm.mem_iff.mp List.mem_cons_self)
  | @collected stay made hm hstay hs =>
    refine ⟨_, made.map Surface.serial, List.map_append, ?_, hnew _ _ hs⟩
    exact (List.eraseP_sublist.map _).trans (hstay ▸ Surface.ticked_sublist _ p.idle)
  | shrunk hm hs =>
    exact ⟨_, _, List.map_append, List.filter_sublist.map _, hnew _ _ hs⟩
  | touched =>
    have hsame : ∀ serial change, Surface.serial ∘ Surface.touch serial change = Surface.serial :=
      fun serial change => funext (Surface.touch_serial serial change)
    rw [List.map_map, hsame]
    exact .of_sublist (List.Sublist.refl _)

namespace System

variable {s : System φ} {o : OpenPool}

theorem row_eq (ho : s.current = some o) : s.row = (s.places o).idle.map Surface.serial :=
  congrArg (List.map Surface.serial) (available_eq ho)

theorem Sound.row_nodup (h : s.Sound) : s.row.Nodup := by
  have hn := (s.owned_perm.map Surface.serial).nodup_iff.mp h.nodup
  rw [List.map_append, List.nodup_append, List.map_append, List.nodup_append] at hn
  exact hn.1.2.1

theorem Sound.row_le (h : s.Sound) {n : Nat} (hn : n ∈ s.row) : n ≤ s.device.built := by
  obtain ⟨x, hx, rfl⟩ := List.mem_map.mp hn
  exact h.serial_le (s.owned_perm.mem_iff.mpr (List.mem_append_left _ (List.mem_append_right _ hx)))

theorem Sound.away_not_idle (h : s.Sound) (ho : s.current = some o) {x : Surface}
    (hx : x ∈ (s.places o).away) : x.serial ∉ s.row := by
  intro hn
  obtain ⟨y, hy, he⟩ := List.mem_map.mp hn
  have haway : x ∈ s.calls.map Call.surface ++ s.parked := by
    unfold parked
    rw [ho]
    exact hx
  exact h.apart (List.mem_append_right _ hy) haway he

theorem Sound.held_not_idle (h : s.Sound) {x : Surface} (hx : x ∈ s.held) : x.serial ∉ s.row := by
  intro hn
  have hnodup := (s.owned_perm.map Surface.serial).nodup_iff.mp h.nodup
  rw [List.map_append, List.nodup_append, List.map_append, List.nodup_append] at hnodup
  exact hnodup.1.2.2 _ (List.mem_map_of_mem hx) _ hn rfl

/-- An idle surface that is idle no more ceased to exist, if nobody took it. -/
theorem Sound.gone {t : System φ} (h : s.Sound) (h' : t.Sound) (hheld : t.held = s.held)
    (hcalls : t.calls = s.calls) (hparked : t.parked = s.parked) {x : Surface}
    (hx : x ∈ s.available) (hrow : x.serial ∉ t.row) : x.serial ∉ t.device.alive := by
  intro halive
  obtain ⟨y, hy, he⟩ := List.mem_map.mp (h'.alive_perm.mem_iff.mpr halive)
  have hplaces := t.owned_perm.mem_iff.mp hy
  rw [hheld, hcalls, hparked] at hplaces
  rcases List.mem_append.mp hplaces with hy | hy
  · rcases List.mem_append.mp hy with hy | hy
    · exact h.held_not_idle hy (he ▸ List.mem_map_of_mem hx)
    · exact hrow (he ▸ List.mem_map_of_mem hy)
  · exact h.apart (List.mem_append_right _ hx) hy he.symm

variable [Allocator φ]

theorem Sound.supply_new (h : s.Sound) {sizes : List Size} {made : List Surface}
    (hs : s.device.Supply sizes made) : ∀ n ∈ made.map Surface.serial, n ∉ s.row := by
  intro n hn hrow
  obtain ⟨x, hx, rfl⟩ := List.mem_map.mp hn
  obtain ⟨size, hsize, hfresh⟩ := hs.fresh hx
  have hlater := hfresh.later
  have hle := h.row_le hrow
  omega

theorem Sound.queued_step (h : s.Sound) (ho : s.current = some o) (m : Move φ)
    (stays : m.staysOpen = true) : QueuedBehind s.row (s.step m).2.row := by
  obtain ⟨o', ho', hstep⟩ := places_step ho m stays
  have hrow := row_eq ho
  rw [row_eq ho', hrow]
  exact hstep.queued (fun x hx => hrow ▸ h.away_not_idle ho hx) fun _ _ hs => hrow ▸ h.supply_new hs

end System

namespace Life

variable [Allocator φ] {law : List (Moment φ) → Moment φ → Prop} {past : List (Moment φ)}
  {s : System φ}

theorem last (life : Life law past s) : ∃ earlier m, past = earlier ++ [m] ∧ m.after = s := by
  cases life with
  | opened config hs ok => exact ⟨[], _, rfl, rfl⟩
  | @move past t life m stays lawful => exact ⟨past, _, rfl, rfl⟩

theorem queued_step (life : Life law past s) (m : Move φ) (stays : m.staysOpen = true) :
    QueuedBehind s.row (s.step m).2.row := by
  obtain ⟨o, ho⟩ := life.current
  exact life.sound.queued_step ho m stays

/-- Surfaces that stay idle over a stretch of moves keep their order. -/
theorem queued (life : Life law past s) {earlier later : List (Moment φ)} {m : Moment φ}
    (hpast : past = earlier ++ m :: later) {ns : List Nat} (hns : ns.Sublist m.after.row)
    (hstay : ∀ m' ∈ later, ∀ n ∈ ns, n ∈ m'.after.row) : ns.Sublist s.row := by
  refine life.since hpast (P := fun between t =>
    (∀ m' ∈ between, ∀ n ∈ ns, n ∈ m'.after.row) → ns.Sublist t.row) (fun _ => hns) ?_ hstay
  intro between t m' lifeThen stays _ ih hstay
  have hns := ih fun k hk => hstay k (List.mem_append_left _ hk)
  exact (lifeThen.queued_step m' stays).keeps lifeThen.sound.row_nodup hns
    (hstay _ (List.mem_append_right _ List.mem_cons_self))

theorem idleFor_eq_zero (life : Life law past s) {n : Nat} (hn : n ∉ s.row) :
    idleFor past n = 0 := by
  obtain ⟨earlier, m, rfl, rfl⟩ := life.last
  rw [idleFor_append, if_neg hn]

/-- Those in front have been idle for longer. -/
theorem idleFor_row (life : Life law past s) :
    s.row.Pairwise fun a b => idleFor past b ≤ idleFor past a := by
  induction life with
  | @opened s config hs ok =>
    obtain ⟨-, -, journal, he⟩ := opening ok
    rw [he]
    exact List.Pairwise.nil
  | @move past s life m stays lawful ih =>
    have hfor : ∀ n ∈ (s.step m).2.row, idleFor (past ++ [s.moment m]) n = idleFor past n + 1 :=
      fun n hn => (idleFor_append past _ n).trans (if_pos hn)
    -- All that are idle now have been so for one move more, and the new ones came with this move.
    have hlift : (s.step m).2.row.Pairwise fun a b => idleFor past b ≤ idleFor past a := by
      obtain ⟨kept, fresh, he, hkept, hfresh⟩ := life.queued_step m stays
      have hzero : ∀ n ∈ fresh, idleFor past n = 0 := fun n hn =>
        life.idleFor_eq_zero (hfresh n hn)
      rw [he]
      refine List.pairwise_append.mpr ⟨ih.sublist hkept, ?_, fun a _ b hb => ?_⟩
      · exact List.pairwise_of_forall_mem_list fun a _ b hb => by rw [hzero b hb]; omega
      · rw [hzero b hb]
        omega
    refine hlift.imp_of_mem fun {a b} ha hb hab => ?_
    rw [hfor a ha, hfor b hb]
    omega

end Life

end SurfaceReuse
