import SurfaceReuse.Proofs.Held
import SurfaceReuse.Proofs.Identity
import SurfaceReuse.Proofs.Waiting

set_option autoImplicit false

/-!
Who owns what in the life of a pool. Every surface that exists is in one place. Surfaces from
elsewhere never come into the hands of a pool whose caller submits only what it was handed, so
the ids in those hands tell the surfaces apart, and every surface is tracked under its own id.
-/

namespace SurfaceReuse

variable {φ : Type}

/-- A surface that has had an id keeps it. -/
def KnownAs (n : Nat) (id : BufferId) (xs : List Surface) (d : Device φ) : Prop :=
  n ≤ d.built ∧ ∀ p ∈ xs.map Surface.key, p.1 = n → p.2 = id

theorem knownAs_build {n : Nat} {id : BufferId} {xs : List Surface} {d : Device φ}
    (f : Features) (h : KnownAs n id xs d) :
    KnownAs n id ((d.build f).1 :: xs) (d.build f).2 := by
  refine ⟨Nat.le_succ_of_le h.1, fun p hp hn => ?_⟩
  rcases List.mem_cons.mp hp with rfl | hp
  · have hle := h.1
    have hnew : d.built + 1 = n := hn
    omega
  · exact h.2 p hp hn

theorem knownAs_custody [Allocator φ] (n : Nat) (id : BufferId) :
    Custody fun (xs : List Surface) (d : Device φ) (_ : BufferId) => KnownAs n id xs d :=
  Custody.of_build (fun hp h => ⟨h.1, fun p hm => h.2 p (hp.mem_iff.mpr hm)⟩) (fun _ _ _ h => h)
    (fun h => ⟨h.1, fun p hm => h.2 p (List.mem_cons_of_mem _ hm)⟩) knownAs_build

theorem handedOut_append (past : List (Moment φ)) (m : Moment φ) :
    handedOut (past ++ [m]) = handedOut past ++ (m.handed?.map Surface.serial).toList := by
  unfold handedOut
  rw [List.filterMap_append]
  cases h : m.handed? <;> simp [h]

/-- What is handed out was in the hands of a call. -/
theorem System.handedOut_step [Allocator φ] {s : System φ} {m : Move φ} {past : List (Moment φ)}
    {n : Nat} (hn : n ∈ handedOut (past ++ [s.moment m])) :
    n ∈ handedOut past ∨ ∃ x ∈ s.calls.map Call.surface, x.serial = n := by
  rw [handedOut_append] at hn
  rcases List.mem_append.mp hn with hn | hn
  · exact .inl hn
  · obtain ⟨x, hx, rfl⟩ := Option.map_eq_some_iff.mp (Option.mem_toList.mp hn)
    obtain ⟨ok, cached, calls, -, hc, -⟩ := flushed_of_handed hx
    exact .inr ⟨x, hc ▸ List.mem_cons_self, rfl⟩

/-- While a pool is in use, a surface that comes from elsewhere is new, and the caller has it. -/
theorem System.foreign_step [Allocator φ] {s : System φ} (m : Move φ) (stays : m.staysOpen = true)
    {n : Nat} (hn : n ∈ (s.moment m).foreign) :
    n = s.device.built + 1 ∧ n ≤ (s.step m).2.device.built ∧
      n ∈ (s.step m).2.held.map Surface.serial := by
  cases m with
  | openPool config => exact absurd stays (by simp [Move.staysOpen])
  | build f =>
    obtain rfl := List.mem_singleton.mp hn
    exact ⟨rfl, Nat.le_refl _, List.mem_map_of_mem (List.mem_append_right _ List.mem_cons_self)⟩
  | _ => exact absurd hn List.not_mem_nil

namespace Life

variable [Allocator φ] {past : List (Moment φ)} {s : System φ}

/-- A surface keeps the id under which it was ever submitted. -/
theorem sameId (life : Life Orderly past s) {h : Hook} {serial : Nat}
    (hr : (h, serial) ∈ registered past) : KnownAs serial h.id s.owned s.device := by
  induction life with
  | opened config hs ok => exact absurd hr List.not_mem_nil
  | @move past s life m stays lawful ih =>
    have hbefore : KnownAs serial h.id s.owned s.device := by
      rcases mem_registered_append.mp hr with hr | hr
      · exact ih hr
      · obtain ⟨-, x, hx, rfl, hid⟩ := System.held_of_registered hr
        have hmine := System.mem_owned_of_held hx
        refine ⟨life.sound.serial_le hmine, fun p hp hn => ?_⟩
        obtain ⟨y, hy, rfl⟩ := List.mem_map.mp hp
        obtain rfl := List.inj_on_of_nodup_map life.sound.nodup hy hmine hn
        exact hid
    have hlaw := knownAs_custody (φ := φ) serial h.id
    exact System.keeps_step hlaw m stays life.sound.inUse
      (fun f _ => System.keeps_hold hlaw _ (knownAs_build f hbefore))
      (fun serial' change he => System.keeps_touch hlaw serial' change
        (lawful.sameId serial' change he) hbefore) hbefore

/-- What is known about surfaces from elsewhere: the caller has them, and they were not handed
    out by the pool. -/
structure Elsewhere (past : List (Moment φ)) (s : System φ) : Prop where
  foreign_le : ∀ n ∈ foreign past, n ≤ s.device.built
  held : ∀ n ∈ foreign past, n ∈ s.device.alive → n ∈ s.held.map Surface.serial
  handed_le : ∀ n ∈ handedOut past, n ≤ s.device.built
  handed : ∀ n ∈ handedOut past, n ∉ foreign past

theorem outside (life : Life SubmitsOwn past s) : Elsewhere past s := by
  induction life with
  | @opened s config hs ok =>
    obtain ⟨hcalls, -, journal, he⟩ := opening ok
    have hbuilt := (Device.requests_releaseAll s.device s.pooled).2
    have hsub : ∀ n ∈ s.held.map Surface.serial, n ≤ s.device.built := by
      intro n hn
      obtain ⟨x, hx, rfl⟩ := List.mem_map.mp hn
      exact hs.sound.serial_le (System.mem_owned_of_held hx)
    refine ⟨?_, ?_, fun n hn => absurd hn List.not_mem_nil, fun n hn => absurd hn List.not_mem_nil⟩
    · rw [foreign_opening ok, he]
      exact fun n hn => Nat.le_trans (hsub n hn) (Nat.le_of_eq hbuilt.symm)
    · rw [foreign_opening ok, he]
      exact fun n hn _ => hn
  | @move past s life m stays lawful ih =>
    have hgrown := life.sound.grown_step m stays
    have hold : ∀ n ∈ foreign past, n ∈ (s.step m).2.device.alive →
        n ∈ (s.step m).2.held.map Surface.serial := by
      intro n hn halive
      have hheld := ih.held n hn (hgrown.2 n halive (ih.foreign_le n hn))
      have hnot : m ≠ .submit n := fun he => ih.handed n (lawful n he) hn
      exact (System.held_step life.sound.alive_nodup m stays hheld hnot).resolve_right fun h =>
        h halive
    have hhand : ∀ n ∈ handedOut (past ++ [s.moment m]), n ≤ s.device.built ∧ n ∉ foreign past := by
      intro n hn
      rcases System.handedOut_step hn with hn | ⟨x, hcall, rfl⟩
      · exact ⟨ih.handed_le n hn, ih.handed n hn⟩
      · have hmine := System.mem_owned_of_call hcall
        refine ⟨life.sound.serial_le hmine, fun hn => ?_⟩
        obtain ⟨y, hy, he⟩ := List.mem_map.mp (ih.held _ hn (life.sound.mem_alive hmine))
        exact life.sound.apart (List.mem_append_left _ hy) (List.mem_append_left _ hcall) he
    constructor
    case foreign_le =>
      intro n hn
      rw [foreign_append] at hn
      rcases List.mem_append.mp hn with hn | hn
      · exact Nat.le_trans (ih.foreign_le n hn) hgrown.1
      · exact (System.foreign_step m stays hn).2.1
    case held =>
      intro n hn halive
      rw [foreign_append] at hn
      rcases List.mem_append.mp hn with hn | hn
      · exact hold n hn halive
      · exact (System.foreign_step m stays hn).2.2
    case handed_le => exact fun n hn => Nat.le_trans (hhand n hn).1 hgrown.1
    case handed =>
      intro n hn hn'
      rw [foreign_append] at hn'
      rcases List.mem_append.mp hn' with hn' | hn'
      · exact (hhand n hn).2 hn'
      · have hle := (hhand n hn).1
        have hnew := (System.foreign_step m stays hn').1
        omega

theorem not_outside (life : Life SubmitsOwn past s) {x : Surface}
    (hx : x ∈ s.calls.map Call.surface ++ s.pooled) : x.serial ∉ foreign past := by
  intro hn
  have hperm : s.owned = s.held ++ (s.calls.map Call.surface ++ s.pooled) :=
    List.append_assoc _ _ _
  have hmine : x ∈ s.owned := hperm ▸ List.mem_append_right _ hx
  obtain ⟨y, hy, he⟩ := List.mem_map.mp (life.outside.held _ hn (life.sound.mem_alive hmine))
  have hnodup := life.sound.nodup
  rw [hperm, List.map_append, List.nodup_append] at hnodup
  exact hnodup.2.2 _ (List.mem_map_of_mem hy) _ (List.mem_map_of_mem hx) he

theorem submitsOwn (life : Life Orderly past s) : Life SubmitsOwn past s :=
  life.weaken fun _ _ h => h.submitted

theorem elsewhere (life : Life Orderly past s) : Elsewhere past s :=
  life.submitsOwn.outside

theorem not_foreign (life : Life Orderly past s) {x : Surface}
    (hx : x ∈ s.calls.map Call.surface ++ s.pooled) : x.serial ∉ foreign past :=
  life.submitsOwn.not_outside hx

/-- As long as ids do not run out, the id of a surface of the pool tells it from all others. -/
theorem eq_of_id (life : Life Orderly past s) (hids : Allocator.KeepsIds φ)
    (hfew : requestsMade past < UInt64.size) {x y : Surface} (hx : x ∈ s.owned) (hy : y ∈ s.owned)
    (hx' : x.serial ∉ foreign past) (hy' : y.serial ∉ foreign past) (hid : x.id = y.id) :
    x = y := by
  obtain ⟨asked, hlen, hissued⟩ := life.issued hids
  have hapart := hissued.law (by omega)
  have hserial := hapart.1 x.key (List.mem_map_of_mem hx) y.key (List.mem_map_of_mem hy) hx' hy' hid
  exact List.inj_on_of_nodup_map life.sound.nodup hx hy hserial

end Life

/-- In every state of the life of a pool each surface that exists is in exactly one place, once:
    with the caller, in the hands of a call in progress, among the idle ones, or in a slot. Those
    that the pool made differ in their ids, no others are in its hands, and a surface in a slot is
    tracked under its own id. -/
theorem one_place_each [Allocator φ] {past : List (Moment φ)} {s : System φ}
    (life : Life Orderly past s) (hids : Allocator.KeepsIds φ)
    (hfew : requestsMade past < UInt64.size) :
    (∀ n, (s.held.map Surface.serial).count n +
        ((s.calls.map Call.surface).map Surface.serial).count n +
        (s.available.map Surface.serial).count n + (s.parked.map Surface.serial).count n =
      if n ∈ s.device.alive then 1 else 0) ∧
    (∀ x ∈ s.owned, ∀ y ∈ s.owned, x.serial ∉ foreign past → y.serial ∉ foreign past →
      x.id = y.id → x = y) ∧
    (∀ x ∈ s.calls.map Call.surface ++ s.pooled, x.serial ∉ foreign past) ∧
    ∀ o id x, s.current = some o → o.pool.pending.get? id = some (.parked x) → x.id = id := by
  refine ⟨fun n => ?_, fun x hx y hy => life.eq_of_id hids hfew hx hy,
    fun x hx => life.not_foreign hx, fun o id x ho hg => ?_⟩
  · have hcount := life.sound.alive_perm.count_eq n
    have hall : s.owned = s.held ++ s.calls.map Call.surface ++ (s.available ++ s.parked) := by
      rw [← System.pooled_eq]
      rfl
    rw [List.Nodup.count life.sound.alive_nodup] at hcount
    rw [← hcount, hall]
    simp only [List.map_append, List.count_append]
    omega
  · have hslot : s.desk.slot id = some (.parked x.serial) := by
      rw [s.desk_slot ho, hg]
      rfl
    obtain ⟨h, hr, rfl⟩ := life.ledger.parked id x.serial hslot
    have hmine : x ∈ s.pooled := by
      unfold System.pooled
      rw [ho]
      exact List.mem_append_right _ ((Pending.mem_values_iff _ _).mpr ⟨h.id, hg⟩)
    exact (life.sameId hr).2 x.key (List.mem_map_of_mem (System.mem_owned_of_pooled hmine)) rfl

open Scenario in
theorem Scenario.Faults.keepsIds : Allocator.KeepsIds Faults :=
  fun _ _ _ _ h => (Faults.made_spec h).1

open Scenario in
/-- One surface is with the caller and one in a slot. -/
theorem one_place_each_of_two :
    ∃ (past : List (Moment Faults)) (s : System Faults), Life Orderly past s ∧
      requestsMade past < UInt64.size ∧ s.held.map Surface.serial = [2] ∧
      s.parked.map Surface.serial = [1] ∧
      (∀ x ∈ s.owned, ∀ y ∈ s.owned, x.serial ∉ foreign past → y.serial ∉ foreign past →
        x.id = y.id → x = y) ∧
      ∀ n, (s.held.map Surface.serial).count n +
          ((s.calls.map Call.surface).map Surface.serial).count n +
          (s.available.map Surface.serial).count n + (s.parked.map Surface.serial).count n =
        if n ∈ s.device.alive then 1 else 0 := by
  have opened : Life Orderly _ _ := .opened none (.start ({} : Faults) {} {}) rfl
  have first := (opened.move (.acquire ⟨8, 8⟩) rfl ⟨nofun, nofun⟩).move (.flushed true) rfl
    ⟨nofun, nofun⟩
  have both := (first.move (.acquire ⟨8, 8⟩) rfl ⟨nofun, nofun⟩).move (.flushed true) rfl
    ⟨nofun, nofun⟩
  have life := (both.move (.submit 1) rfl (.submit _ (by decide))).move .registered rfl
    ⟨nofun, nofun⟩
  have hplaces := one_place_each life Faults.keepsIds (by decide)
  exact ⟨_, _, life, by decide, rfl, rfl, hplaces.2.1, hplaces.1⟩

end SurfaceReuse
