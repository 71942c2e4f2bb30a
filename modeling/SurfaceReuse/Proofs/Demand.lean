import SurfaceReuse.Proofs.IdleOrder
import SurfaceReuse.Proofs.SingleOwner

set_option autoImplicit false

/-!
How many surfaces of a size there are. A new one is made when no idle one fits, or in the place of
one that went before; so there are never more than were out of the pool at some time together.
-/

namespace SurfaceReuse

variable {φ : Type}

/-- Sizes never change, what is valid stays valid, and only surfaces that the pool handed out are
    submitted. -/
structure Steady (past : List (Moment φ)) (m : Moment φ) : Prop where
  sameSize : ∀ serial change, m.move = .touch serial change →
    ∀ f : Features, (change f).size = f.size
  staysValid : ∀ serial change, m.move = .touch serial change →
    ∀ f : Features, f.valid = true → (change f).valid = true
  submitted : SubmitsOwn past m

def Allocator.KeepsSizes (φ : Type) [Allocator φ] : Prop :=
  ∀ (a : φ) (size : Size) (id : BufferId) (f : Features),
    (Allocator.answer a size id).1 = .made f → f.size = size

/-- A surface of that size that was not made elsewhere. -/
def Surface.isOwn (size : Size) (elsewhere : List Nat) (x : Surface) : Bool :=
  x.size == size && !elsewhere.contains x.serial

/-- The surfaces that the caller has, a call in progress has, or that wait for their writes. -/
def System.out (s : System φ) : List Surface :=
  s.held ++ (s.calls.map Call.surface ++ s.parked)

/-- At one moment of the life so far at least `n` surfaces of the size were out of the pool. -/
def WereOut (past : List (Moment φ)) (size : Size) (n : Nat) : Prop :=
  ∃ earlier m later, past = earlier ++ m :: later ∧
    n ≤ m.after.out.countP (Surface.isOwn size (foreign (earlier ++ [m])))

theorem WereOut.mono {past : List (Moment φ)} {size : Size} {n k : Nat} (h : WereOut past size n)
    (hle : k ≤ n) : WereOut past size k := by
  obtain ⟨earlier, m, later, hpast, hn⟩ := h
  exact ⟨earlier, m, later, hpast, Nat.le_trans hle hn⟩

section Counting

variable {size : Size} {elsewhere : List Nat}

theorem countP_le_of_tick (maxAge : UInt32) (xs : List Surface) :
    (xs.filterMap (Surface.tick? maxAge)).countP (Surface.isOwn size elsewhere) ≤
      xs.countP (Surface.isOwn size elsewhere) := by
  induction xs with
  | nil => exact Nat.le_refl _
  | cons x xs ih =>
    rw [List.filterMap_cons, List.countP_cons]
    cases h : x.tick? maxAge with
    | none => exact Nat.le_trans ih (Nat.le_add_right _ _)
    | some y =>
      obtain ⟨-, -, rfl⟩ := Surface.tick?_eq_some h
      dsimp only
      rw [List.countP_cons]
      exact Nat.add_le_add_right ih _

theorem countP_touch {serial : Nat} {change : Features → Features}
    (hsize : ∀ f : Features, (change f).size = f.size) (xs : List Surface) :
    (xs.map (Surface.touch serial change)).countP (Surface.isOwn size elsewhere) =
      xs.countP (Surface.isOwn size elsewhere) := by
  rw [List.countP_map]
  refine List.countP_congr fun x _ => ?_
  have hsame : (x.touch serial change).size = x.size := by
    unfold Surface.touch
    split
    · exact hsize x.toFeatures
    · rfl
  simp [Surface.isOwn, hsame]

theorem Device.Supply.countP_le_sizes [Allocator φ] (hsizes : Allocator.KeepsSizes φ)
    {d : Device φ} {sizes : List Size} {made : List Surface} (h : d.Supply sizes made) :
    made.countP (Surface.isOwn size elsewhere) ≤ sizes.countP (· == size) := by
  induction h with
  | nothing sizes => exact Nat.zero_le _
  | missed _ ih =>
    rw [List.countP_cons]
    omega
  | @made size' sizes x made hx _ ih =>
    obtain ⟨a, id, ha⟩ := hx.asked
    have hsize : x.size = size' := hsizes a size' id _ ha
    rw [List.countP_cons, List.countP_cons, Surface.isOwn, hsize]
    cases size' == size <;> cases elsewhere.contains x.serial <;> simp <;> omega

theorem countP_sizes {xs : List Surface} (h : ∀ x ∈ xs, x.serial ∉ elsewhere) :
    (xs.map fun x => x.size).countP (· == size) = xs.countP (Surface.isOwn size elsewhere) := by
  rw [List.countP_map]
  refine List.countP_congr fun x hx => ?_
  simp [Surface.isOwn, h x hx]

theorem Device.Supply.countP_le [Allocator φ] (hsizes : Allocator.KeepsSizes φ) {d : Device φ}
    {gone made : List Surface} (h : d.Supply (gone.map fun x => x.size) made)
    (hgone : ∀ x ∈ gone, x.serial ∉ elsewhere) :
    made.countP (Surface.isOwn size elsewhere) ≤ gone.countP (Surface.isOwn size elsewhere) := by
  rw [← countP_sizes hgone]
  exact h.countP_le_sizes hsizes

/-- A collection puts at most one surface in the place of one that it took. -/
theorem Device.Supply.countP_collected [Allocator φ] (hsizes : Allocator.KeepsSizes φ)
    {d : Device φ} {maxAge : UInt32} {idle stay made : List Surface}
    (hs : d.Supply ((stay.find? Surface.shrinkable).toList.map fun x => x.size) made)
    (hstay : stay = idle.filterMap (Surface.tick? maxAge))
    (hown : ∀ x ∈ idle, x.serial ∉ elsewhere) :
    (stay.eraseP Surface.shrinkable ++ made).countP (Surface.isOwn size elsewhere) ≤
      idle.countP (Surface.isOwn size elsewhere) := by
  have hgone : ∀ x ∈ (stay.find? Surface.shrinkable).toList, x.serial ∉ elsewhere := by
    intro x hx
    have hx' := List.mem_of_find?_eq_some (Option.mem_toList.mp hx)
    rw [hstay] at hx'
    obtain ⟨y, hy, -, -, rfl⟩ := Surface.mem_ticked hx'
    exact hown y hy
  have hmade : made.countP (Surface.isOwn size elsewhere) ≤
      (stay.find? Surface.shrinkable).toList.countP (Surface.isOwn size elsewhere) :=
    hs.countP_le hsizes hgone
  have hperm := (find_eraseP_perm Surface.shrinkable stay).countP_eq (Surface.isOwn size elsewhere)
  rw [List.countP_append] at hperm ⊢
  have hticked : stay.countP (Surface.isOwn size elsewhere) ≤
      idle.countP (Surface.isOwn size elsewhere) := hstay ▸ countP_le_of_tick maxAge idle
  omega

/-- Right-sizing puts new surfaces in the places of the large ones only. -/
theorem Device.Supply.countP_shrunk [Allocator φ] (hsizes : Allocator.KeepsSizes φ)
    {d : Device φ} {idle made : List Surface}
    (hs : d.Supply ((idle.filter fun x => x.oversized).map fun x => x.size) made)
    (hown : ∀ x ∈ idle, x.serial ∉ elsewhere) :
    ((idle.filter fun x => !x.oversized) ++ made).countP (Surface.isOwn size elsewhere) ≤
      idle.countP (Surface.isOwn size elsewhere) := by
  have hmade : made.countP (Surface.isOwn size elsewhere) ≤
      (idle.filter fun x => x.oversized).countP (Surface.isOwn size elsewhere) :=
    hs.countP_le hsizes fun x hx => hown x (List.mem_of_mem_filter hx)
  have hperm := (List.filter_append_perm (fun x : Surface => x.oversized) idle).countP_eq
    (Surface.isOwn size elsewhere)
  rw [List.countP_append] at hperm ⊢
  omega

/-- Where no idle surface fits, and all are valid, there is none of the size. -/
theorem countP_of_none_fits {idle : List Surface} (hnone : idle.find? (Surface.fits size) = none)
    (hvalid : ∀ x ∈ idle, x.valid = true) :
    idle.countP (Surface.isOwn size elsewhere) = 0 := by
  refine List.countP_eq_zero.mpr fun y hy hc => ?_
  have hsize : (y.size == size) = true := (Bool.and_eq_true_iff.mp hc).1
  exact List.find?_eq_none.mp hnone y hy (Bool.and_eq_true_iff.mpr ⟨hvalid y hy, hsize⟩)

end Counting

namespace Places

variable [Allocator φ] {s : System φ} {m : Move φ} {p p' : Places}

def all (p : Places) : List Surface :=
  p.held ++ (p.away ++ p.idle)

theorem Step.valid (h : Step s m p p')
    (hstay : ∀ serial change, m = .touch serial change →
      ∀ f : Features, f.valid = true → (change f).valid = true)
    (hp : ∀ x ∈ p.idle, x.valid = true) : ∀ x ∈ p'.idle, x.valid = true := by
  have hmade : ∀ sizes made, s.device.Supply sizes made → ∀ x ∈ made, x.valid = true := by
    intro sizes made hs x hx
    obtain ⟨size, -, hfresh⟩ := hs.fresh hx
    exact hfresh.valid
  intro x hx
  cases h with
  | gone | made | handed | submitted | parted | built => exact hp x hx
  | found => exact hp x (List.mem_of_mem_eraseP hx)
  | recycled hr hv =>
    rcases List.mem_append.mp hx with hx | hx
    · exact hp x hx
    · exact List.mem_singleton.mp hx ▸ hv
  | collected hm hstay hs =>
    rcases List.mem_append.mp hx with hx | hx
    · have hx' := List.mem_of_mem_eraseP hx
      rw [hstay] at hx'
      obtain ⟨y, -, hv, -, rfl⟩ := Surface.mem_ticked hx'
      exact hv
    · exact hmade _ _ hs x hx
  | shrunk hm hs =>
    rcases List.mem_append.mp hx with hx | hx
    · exact hp x (List.mem_of_mem_filter hx)
    · exact hmade _ _ hs x hx
  | touched hm =>
    obtain ⟨y, hy, rfl⟩ := List.mem_map.mp hx
    unfold Surface.touch
    split
    · exact hstay _ _ hm y.toFeatures (hp y hy)
    · exact hp y hy

/-- A move makes no more surfaces of a size, unless it leaves none of them idle. -/
theorem Step.demand (h : Step s m p p') (hsizes : Allocator.KeepsSizes φ) {size : Size}
    {elsewhere : List Nat}
    (hsame : ∀ serial change, m = .touch serial change → ∀ f : Features, (change f).size = f.size)
    (hbuild : ∀ f, m = .build f → s.device.built + 1 ∈ elsewhere)
    (hvalid : ∀ x ∈ p.idle, x.valid = true) (hown : ∀ x ∈ p.idle, x.serial ∉ elsewhere) :
    p'.all.countP (Surface.isOwn size elsewhere) ≤ p.all.countP (Surface.isOwn size elsewhere) ∨
      p'.idle.countP (Surface.isOwn size elsewhere) = 0 := by
  let own := Surface.isOwn size elsewhere
  have hrest : ∀ (x : Surface) (xs : List Surface),
      (x.withFeatures x.rested :: xs).countP own = (x :: xs).countP own := fun x xs => by
    rw [List.countP_cons, List.countP_cons]
    rfl
  have hall : ∀ q : Places,
      q.all.countP own = q.held.countP own + (q.away.countP own + q.idle.countP own) := fun q => by
    rw [all, List.countP_append, List.countP_append]
  change _ ≤ _ ∨ p'.idle.countP own = 0
  rw [hall, hall]
  cases h with
  | @gone xs away h =>
    have hperm := h.countP_eq own
    rw [List.countP_append] at hperm
    left
    dsimp only
    omega
  | @found size' x hm hx =>
    have hperm := (eraseP_perm _ _ _ hx).countP_eq own
    left
    dsimp only
    rw [hrest]
    rw [List.countP_cons] at hperm ⊢
    omega
  | @made size' x hm hnone hx =>
    -- A surface of this size is made only because no idle one fits, and all idle ones are valid.
    by_cases hs : size' = size
    · exact .inr (countP_of_none_fits (hs ▸ hnone) hvalid)
    · obtain ⟨a, id, ha⟩ := hx.asked
      have hsize : x.size = size' := hsizes a size' id _ ha
      have hnot : own x = false := by simp [own, Surface.isOwn, hsize, hs]
      left
      dsimp only
      rw [hrest, List.countP_cons, hnot]
      simp
  | @handed x away h =>
    left
    dsimp only
    rw [h, List.countP_append, List.countP_singleton, List.countP_cons]
    omega
  | @submitted x hm hx =>
    have hperm := (eraseP_perm _ _ _ hx).countP_eq own
    left
    dsimp only
    rw [List.countP_cons] at hperm ⊢
    omega
  | parted serial =>
    have hle := (List.eraseP_sublist (p := fun y : Surface => y.serial == serial)
      (l := p.held)).countP_le (p := own)
    left
    dsimp only
    omega
  | @recycled x away hr hv hroom h =>
    have hperm := h.countP_eq own
    left
    dsimp only
    rw [List.countP_append, List.countP_singleton]
    rw [List.countP_cons] at hperm
    omega
  | collected hm hstay hs =>
    exact .inl (Nat.add_le_add_left
      (Nat.add_le_add_left (hs.countP_collected hsizes hstay hown) _) _)
  | shrunk hm hs =>
    exact .inl (Nat.add_le_add_left
      (Nat.add_le_add_left (hs.countP_shrunk hsizes hown) _) _)
  | touched hm =>
    left
    dsimp only
    simp only [own, countP_touch (hsame _ _ hm), Nat.le_refl]
  | @built f hm =>
    -- What the caller has from elsewhere does not count.
    have hnot : own ⟨f, s.device.built + 1⟩ = false := by
      simp [own, Surface.isOwn, hbuild f hm]
    left
    dsimp only
    rw [List.countP_append, List.countP_singleton, hnot]
    simp

end Places

namespace System

variable {s : System φ} {o : OpenPool}

theorem owned_countP (s : System φ) (p : Surface → Bool) :
    s.owned.countP p = s.out.countP p + s.available.countP p := by
  have hperm := s.owned_perm.countP_eq p
  simp only [out, List.countP_append] at hperm ⊢
  omega

theorem places_countP (ho : s.current = some o) (p : Surface → Bool) :
    s.owned.countP p = (s.places o).all.countP p := by
  have hidle : (s.places o).idle = s.available := (available_eq ho).symm
  have haway : (s.places o).away = s.calls.map Call.surface ++ s.parked := by
    unfold parked
    rw [ho]
    rfl
  rw [owned_countP, Places.all, hidle, haway]
  simp only [out, List.countP_append]
  change _ = s.held.countP p + _
  omega

end System

namespace Life

variable [Allocator φ] {past : List (Moment φ)} {s : System φ}

theorem idle_valid (life : Life Steady past s) : ∀ x ∈ s.available, x.valid = true := by
  induction life with
  | @opened s config hs ok =>
    obtain ⟨-, -, journal, he⟩ := opening ok
    rw [he]
    exact nofun
  | @move past s life m stays lawful ih =>
    obtain ⟨o, ho⟩ := life.current
    obtain ⟨o', ho', hstep⟩ := System.places_step ho m stays
    rw [System.available_eq ho] at ih
    rw [System.available_eq ho']
    exact hstep.valid lawful.staysValid ih

theorem mem_foreign_append {law : List (Moment φ) → Moment φ → Prop} (life : Life law past s)
    {m : Move φ} (stays : m.staysOpen = true) {x : Surface} (hx : x ∈ s.owned) :
    x.serial ∈ foreign (past ++ [s.moment m]) ↔ x.serial ∈ foreign past := by
  rw [foreign_append, List.mem_append]
  refine or_iff_left fun hn => ?_
  have hnew := (System.foreign_step m stays hn).1
  have hle := life.sound.serial_le hx
  omega

theorem idle_own (life : Life Steady past s) : ∀ x ∈ s.available, x.serial ∉ foreign past := by
  intro x hx
  have hpool : x ∈ s.pooled := by
    rw [System.pooled_eq]
    exact List.mem_append_left _ hx
  exact (life.weaken fun _ _ h => h.submitted).not_outside (List.mem_append_right _ hpool)

theorem demanded (life : Life Steady past s) (hsizes : Allocator.KeepsSizes φ) (size : Size) :
    WereOut past size (s.owned.countP (Surface.isOwn size (foreign past))) := by
  induction life with
  | @opened s config hs ok =>
    refine ⟨[], _, [], rfl, ?_⟩
    obtain ⟨-, -, journal, he⟩ := opening ok
    have hidle : (s.step (.openPool config)).2.available = [] := by
      rw [he]
      rfl
    rw [System.owned_countP, hidle]
    exact Nat.le_refl _
  | @move past s life m stays lawful ih =>
    obtain ⟨earlier, m', later, hpast, hle⟩ := ih
    obtain ⟨o, ho⟩ := life.current
    obtain ⟨o', ho', hstep⟩ := System.places_step ho m stays
    let elsewhere := foreign (past ++ [s.moment m])
    have hsame : s.owned.countP (Surface.isOwn size elsewhere) =
        s.owned.countP (Surface.isOwn size (foreign past)) :=
      List.countP_congr fun x hx => by
        simp [Surface.isOwn, elsewhere, life.mem_foreign_append stays hx]
    have hidle : (s.places o).idle = s.available := (System.available_eq ho).symm
    have hown : ∀ x ∈ (s.places o).idle, x.serial ∉ elsewhere := by
      intro x hx
      rw [hidle] at hx
      have hpool : x ∈ s.pooled := by
        rw [System.pooled_eq]
        exact List.mem_append_left _ hx
      rw [life.mem_foreign_append stays (System.mem_owned_of_pooled hpool)]
      exact life.idle_own x hx
    have hbuild : ∀ f, m = .build f → s.device.built + 1 ∈ elsewhere := by
      rintro f rfl
      change _ ∈ foreign (past ++ [s.moment (.build f)])
      rw [foreign_append]
      exact List.mem_append_right _ List.mem_cons_self
    rcases hstep.demand hsizes lawful.sameSize hbuild (hidle ▸ life.idle_valid) hown with h | h
    · refine ⟨earlier, m', later ++ [s.moment m], by rw [hpast]; simp, ?_⟩
      rw [← System.places_countP ho, ← System.places_countP ho', hsame] at h
      exact Nat.le_trans h hle
    · refine ⟨past, s.moment m, [], rfl, ?_⟩
      have hnone : (s.step m).2.available.countP (Surface.isOwn size elsewhere) = 0 :=
        System.available_eq ho' ▸ h
      rw [System.owned_countP, hnone]
      exact Nat.le_refl _

end Life

open Scenario in
theorem Scenario.Faults.keepsSizes : Allocator.KeepsSizes Faults :=
  fun _ _ _ _ h => (Faults.made_spec h).2.1

end SurfaceReuse
