import SurfaceReuse.Proofs.IdleOrder
import SurfaceReuse.Proofs.SingleOwner

set_option autoImplicit false

/-!
The ages of the idle surfaces. Outside the pool no surface ages, so a surface that comes back is
the youngest, and the ages tell the order in which the surfaces came.
-/

namespace SurfaceReuse

variable {φ : Type}

/-- Only the pool makes surfaces older, and only surfaces that it handed out are submitted. -/
structure Aging (past : List (Moment φ)) (m : Moment φ) : Prop where
  sameAge : ∀ serial change, m.move = .touch serial change →
    ∀ f : Features, (change f).age = f.age
  submitted : SubmitsOwn past m

/-- A surface is new when the device hands it over. -/
def Allocator.StartsYoung (φ : Type) [Allocator φ] : Prop :=
  ∀ (a : φ) (size : Size) (id : BufferId) (f : Features),
    (Allocator.answer a size id).1 = .made f → f.age = 0

theorem Features.older_age_le {f g : Features} (h : f.age ≤ g.age) :
    f.older.age ≤ g.older.age := by
  have hlt := g.age.toNat_lt
  rw [UInt32.le_iff_toNat_le] at h ⊢
  rw [older_age, older_age]
  split <;> split <;> omega

theorem UInt32.le_of_eq_zero {a b : UInt32} (h : a = 0) : a ≤ b := by
  rw [h, UInt32.le_iff_toNat_le]
  exact Nat.zero_le _

namespace Surface

theorem touch_age {serial : Nat} {change : Features → Features}
    (h : ∀ f : Features, (change f).age = f.age) (x : Surface) :
    (x.touch serial change).age = x.age := by
  unfold touch
  split
  · exact h x.toFeatures
  · rfl

/-- The oldest come first. -/
def OldestFirst (xs : List Surface) : Prop :=
  xs.Pairwise fun x y => y.age ≤ x.age

/-- The surface could be used, but this tick is one too many. -/
def expires (maxAge : UInt32) (x : Surface) : Bool :=
  x.valid && !decide (x.older.age < maxAge)

namespace OldestFirst

variable {xs ys : List Surface}

theorem sublist (h : OldestFirst ys) (hs : xs.Sublist ys) : OldestFirst xs :=
  List.Pairwise.sublist hs h

theorem append_young (h : OldestFirst xs) (hy : ∀ y ∈ ys, y.age = 0) : OldestFirst (xs ++ ys) :=
  List.pairwise_append.mpr ⟨h,
    List.pairwise_of_forall_mem_list fun _ _ y hm => UInt32.le_of_eq_zero (hy y hm),
    fun _ _ y hm => UInt32.le_of_eq_zero (hy y hm)⟩

theorem tick (maxAge : UInt32) (h : OldestFirst xs) :
    OldestFirst (xs.filterMap (tick? maxAge)) := by
  refine h.filterMap _ fun x y hxy x' hx y' hy => ?_
  obtain ⟨-, -, rfl⟩ := tick?_eq_some hx
  obtain ⟨-, -, rfl⟩ := tick?_eq_some hy
  exact Features.older_age_le hxy

theorem touch {serial : Nat} {change : Features → Features}
    (hage : ∀ f : Features, (change f).age = f.age) (h : OldestFirst xs) :
    OldestFirst (xs.map (Surface.touch serial change)) := by
  refine List.pairwise_map.mpr (h.imp fun {x y} hxy => ?_)
  rw [touch_age hage, touch_age hage]
  exact hxy

/-- Those whose time is up stand in front of all others that can be used. -/
theorem expires_prefix (maxAge : UInt32) (h : OldestFirst xs) :
    xs.filter (expires maxAge) <+: xs.filter fun x => x.valid := by
  induction xs with
  | nil => exact List.prefix_rfl
  | cons x xs ih =>
    obtain ⟨hx, hxs⟩ := List.pairwise_cons.mp h
    by_cases hv : x.valid = true
    · by_cases he : x.older.age < maxAge
      · have hnone : (x :: xs).filter (expires maxAge) = [] := by
          refine List.filter_eq_nil_iff.mpr fun y hy => ?_
          have hle : y.older.age ≤ x.older.age := by
            rcases List.mem_cons.mp hy with rfl | hy
            · exact UInt32.le_refl _
            · exact Features.older_age_le (hx y hy)
          have hlt : y.older.age < maxAge := UInt32.lt_of_le_of_lt hle he
          simp [expires, hlt]
        rw [hnone]
        exact List.nil_prefix
      · have hexp : expires maxAge x = true := by simp [expires, hv, he]
        rw [List.filter_cons_of_pos hexp,
          List.filter_cons_of_pos (p := fun x : Surface => x.valid) hv]
        exact (List.prefix_cons_inj x).mpr (ih hxs)
    · have hexp : ¬expires maxAge x = true := by simp [expires, hv]
      rw [List.filter_cons_of_neg hexp,
        List.filter_cons_of_neg (p := fun x : Surface => x.valid) hv]
      exact ih hxs

end OldestFirst

end Surface

open Surface (OldestFirst)

/-- The idle surfaces stand in the order of their ages and have time left, and all others that may
    join them are as good as new. -/
structure Places.InOrder (p : Places) (handed : List Nat) : Prop where
  limit : 0 < p.config.maxAge
  held : ∀ x ∈ p.held, x.serial ∈ handed → x.age = 0
  away : ∀ x ∈ p.away, x.age = 0
  idle : OldestFirst p.idle
  young : ∀ x ∈ p.idle, x.age < p.config.maxAge

namespace Places.InOrder

variable [Allocator φ] {s : System φ} {m : Move φ} {p p' : Places} {past : List (Moment φ)}

theorem step (order : p.InOrder (handedOut past)) (h : Places.Step s m p p')
    (lawful : Aging past (s.moment m)) (hyoung : Allocator.StartsYoung φ)
    (hheld : ∀ x ∈ p.held, x.serial ∈ handedOut (past ++ [s.moment m]) →
      x.serial ∈ handedOut past)
    (hbuilt : ∀ n ∈ handedOut (past ++ [s.moment m]), n ≤ s.device.built) :
    p'.InOrder (handedOut (past ++ [s.moment m])) := by
  have held : ∀ x ∈ p.held, x.serial ∈ handedOut (past ++ [s.moment m]) → x.age = 0 :=
    fun x hx hn => order.held x hx (hheld x hx hn)
  have hmade : ∀ sizes made, s.device.Supply sizes made → ∀ x ∈ made, x.age = 0 := by
    intro sizes made hs x hx
    obtain ⟨size, -, hfresh⟩ := hs.fresh hx
    obtain ⟨a, id, ha⟩ := hfresh.asked
    exact hyoung a _ id _ ha
  have hrested : ∀ x : Surface, (x.withFeatures x.rested).age = 0 := fun _ => rfl
  cases h with
  | gone xs h =>
    exact ⟨order.limit, held, fun x hx => order.away x (h.mem_iff.mp (List.mem_append_right _ hx)),
      order.idle, order.young⟩
  | found hm hx =>
    exact ⟨order.limit, held, List.forall_mem_cons.mpr ⟨hrested _, order.away⟩,
      order.idle.sublist List.eraseP_sublist,
      fun x hx => order.young x (List.mem_of_mem_eraseP hx)⟩
  | made hm hnone hx =>
    exact ⟨order.limit, held, List.forall_mem_cons.mpr ⟨hrested _, order.away⟩, order.idle,
      order.young⟩
  | @handed x away h =>
    have haway := order.away
    rw [h] at haway
    obtain ⟨hx, haway⟩ := List.forall_mem_cons.mp haway
    refine ⟨order.limit, fun y hy hn => ?_, haway, order.idle, order.young⟩
    rcases List.mem_append.mp hy with hy | hy
    · exact held y hy hn
    · exact List.mem_singleton.mp hy ▸ hx
  | @submitted x hm hx =>
    have hage : x.age = 0 := order.held x (List.mem_of_find?_eq_some hx)
      (lawful.submitted x.serial hm)
    exact ⟨order.limit, fun y hy => held y (List.mem_of_mem_eraseP hy),
      List.forall_mem_cons.mpr ⟨hage, order.away⟩, order.idle, order.young⟩
  | parted serial =>
    exact ⟨order.limit, fun y hy => held y (List.mem_of_mem_eraseP hy), order.away, order.idle,
      order.young⟩
  | @recycled x away hr hv hroom h =>
    have haway : ∀ y ∈ x :: away, y.age = 0 := fun y hy => order.away y (h.mem_iff.mp hy)
    obtain ⟨hx, haway⟩ := List.forall_mem_cons.mp haway
    have hnew : ∀ y ∈ [x], y.age = 0 := fun y hy => List.mem_singleton.mp hy ▸ hx
    refine ⟨order.limit, held, haway, order.idle.append_young hnew, fun y hy => ?_⟩
    rcases List.mem_append.mp hy with hy | hy
    · exact order.young y hy
    · exact (hnew y hy).symm ▸ order.limit
  | @collected stay made hm hstay hs =>
    have hticked : OldestFirst stay := hstay ▸ order.idle.tick _
    refine ⟨order.limit, held, order.away,
      (hticked.sublist List.eraseP_sublist).append_young (hmade _ _ hs),
      fun y hy => ?_⟩
    rcases List.mem_append.mp hy with hy | hy
    · have hy' := List.mem_of_mem_eraseP hy
      rw [hstay] at hy'
      obtain ⟨x, -, -, hlt, rfl⟩ := Surface.mem_ticked hy'
      exact hlt
    · exact (hmade _ _ hs y hy).symm ▸ order.limit
  | shrunk hm hs =>
    refine ⟨order.limit, held, order.away,
      (order.idle.sublist List.filter_sublist).append_young (hmade _ _ hs),
      fun y hy => ?_⟩
    rcases List.mem_append.mp hy with hy | hy
    · exact order.young y (List.mem_of_mem_filter hy)
    · exact (hmade _ _ hs y hy).symm ▸ order.limit
  | @touched serial change hm =>
    have hage : ∀ x : Surface, (x.touch serial change).age = x.age :=
      Surface.touch_age (lawful.sameAge _ _ hm)
    refine ⟨order.limit, fun y hy hn => ?_, fun y hy => ?_,
      order.idle.touch (lawful.sameAge _ _ hm), fun y hy => ?_⟩
    all_goals obtain ⟨x, hx, rfl⟩ := List.mem_map.mp hy
    · rw [Surface.touch_serial] at hn
      exact (hage x).trans (held x hx hn)
    · exact (hage x).trans (order.away x hx)
    · exact hage x ▸ order.young x hx
  | built hm =>
    -- A surface from elsewhere may have any age, but it is too new to have been handed out.
    refine ⟨order.limit, fun y hy hn => ?_, order.away, order.idle, order.young⟩
    rcases List.mem_append.mp hy with hy | hy
    · exact held y hy hn
    · obtain rfl := List.mem_singleton.mp hy
      have hle : s.device.built + 1 ≤ s.device.built := hbuilt _ hn
      omega

end Places.InOrder

namespace System

variable [Allocator φ] {s : System φ} {o : OpenPool}

omit [Allocator φ] in
theorem flushed_cached (ho : s.current = some o) (hp : o.poisoned = false) {x : Surface}
    {calls : List Call} (hc : s.calls = .flushing x true :: calls) :
    (s.flushed true).1 = .handed x := by
  have hl : ({ s with calls } : System φ).perform (fun _ l => (.ok (), l.countReused)) =
      (.done, ({ s with calls } : System φ).leave o (s.inside o).countReused) := by
    unfold perform
    rw [locked_open (s := { s with calls }) ho hp, leave_ok hp]
    rfl
  simp [flushed, hc, hl]

/-- A request takes the first idle surface that fits, and gets it if it becomes ready. -/
theorem acquire_first (ho : s.current = some o) (hp : o.poisoned = false) {size : Size}
    {x : Surface} (hx : s.available.find? (Surface.fits size) = some x) :
    (s.acquire size).2.calls = .flushing (x.withFeatures x.rested) true :: s.calls ∧
      ((s.acquire size).2.flushed true).1 = .handed (x.withFeatures x.rested) := by
  rw [available_eq ho] at hx
  have hok : ((s.inside o).obtain size).1 = .ok (x, true) := by
    rcases (s.inside o).obtain_cases size with ⟨y, hy, hok, -⟩ | ⟨hnone, -⟩
    · obtain rfl := Option.some.inj (hx.symm.trans hy)
      exact hok
    · exact absurd (hx.symm.trans hnone) nofun
  have he : (s.acquire size).2 =
      { s.leave { o with poisoned := false } ((s.inside o).obtain size).2 with
        calls := .flushing (x.withFeatures x.rested) true :: s.calls } := by
    unfold acquire
    rw [locked_open ho hp, hok]
    rfl
  rw [he]
  exact ⟨rfl, flushed_cached rfl rfl rfl⟩

theorem collect_leaves (ho : s.current = some o) (hp : o.poisoned = false) :
    ∃ p l made, (s.step .collect).2 = s.leave { o with poisoned := p } l ∧
      l.pool.pending = o.pool.pending ∧
      l.pool.available = (o.pool.available.filterMap (Surface.tick? o.config.maxAge)).eraseP
        Surface.shrinkable ++ made ∧
      ∃ sizes, s.device.Supply sizes made := by
  obtain ⟨made, hidle, hs⟩ := (s.inside o).collect_idle o.config.maxAge
  refine ⟨((s.inside o).collect o.config.maxAge).1.isPanic,
    ((s.inside o).collect o.config.maxAge).2, made, ?_, (s.inside o).collect_pending _, hidle, _,
    hs⟩
  change (s.locked fun o l => l.collect o.config.maxAge).2 = _
  rw [locked_open ho hp]

/-- A maintenance tick lets go of the surfaces whose time is up, and of no other that can be used,
    unless it is made anew. -/
theorem Sound.collect_step (h : s.Sound) (ho : s.current = some o) (hp : o.poisoned = false)
    {x : Surface} (hx : x ∈ s.available) :
    (x.expires o.config.maxAge = true → x.serial ∉ (s.step .collect).2.device.alive) ∧
    (x.valid = true → x.expires o.config.maxAge = false →
      x.serial ∈ (s.step .collect).2.row ∨ x.shrinkable = true) := by
  obtain ⟨p, l, made, he, hpending, hidle, sizes, hs⟩ := collect_leaves ho hp
  have hrow : (s.step .collect).2.row = l.pool.available.map Surface.serial := by
    rw [he]
    rfl
  rw [hidle, List.map_append] at hrow
  rw [available_eq ho] at hx
  constructor
  · intro hexp
    refine h.gone (h.step .collect) (by rw [he]; rfl) (by rw [he]; rfl) ?_ (available_eq ho ▸ hx) ?_
    · unfold parked
      rw [he, ho]
      exact congrArg Pending.values hpending
    · rw [hrow, List.mem_append]
      rintro (hn | hn)
      · obtain ⟨y, hy, hyx⟩ := List.mem_map.mp hn
        obtain ⟨z, hz, -, hlt, rfl⟩ := Surface.mem_ticked (List.mem_of_mem_eraseP hy)
        have hzx : z = x := List.inj_on_of_nodup_map h.row_nodup (available_eq ho ▸ hz)
          (available_eq ho ▸ hx) hyx
        rw [hzx] at hlt
        simp [Surface.expires, hlt] at hexp
      · exact h.supply_new hs _ hn (List.mem_map_of_mem (available_eq ho ▸ hx))
  · intro hv hexp
    by_cases hsh : x.shrinkable = true
    · exact .inr hsh
    · have hlt : x.older.age < o.config.maxAge := by simpa [Surface.expires, hv] using hexp
      have hstay : x.withFeatures x.older ∈
          o.pool.available.filterMap (Surface.tick? o.config.maxAge) :=
        List.mem_filterMap.mpr ⟨x, hx, by simp [Surface.tick?, hv, hlt]⟩
      have hkept := (List.mem_eraseP_of_neg (p := Surface.shrinkable) (a := x.withFeatures x.older)
        hsh).mpr hstay
      have hserial := List.mem_map_of_mem (f := Surface.serial) hkept
      rw [hrow]
      exact .inl (List.mem_append_left _ hserial)

end System

namespace Life

variable [Allocator φ] {past : List (Moment φ)} {s : System φ}

theorem inOrder (life : Life Aging past s) (hyoung : Allocator.StartsYoung φ) :
    ∃ o, s.current = some o ∧ (s.places o).InOrder (handedOut past) := by
  induction life with
  | @opened s config hs ok =>
    obtain ⟨hc, hfault, journal, he⟩ := opening ok
    rw [he]
    refine ⟨_, rfl, ?limit, fun x hx hn => absurd hn List.not_mem_nil, ?away, List.Pairwise.nil,
      nofun⟩
    case limit =>
      obtain ⟨-, -, hage⟩ := (config.getD {}).fault?_eq_none_iff.mp hfault
      exact UInt32.lt_of_lt_of_le (by decide) hage
    case away =>
      change ∀ x ∈ s.calls.map Call.surface ++ [], x.age = 0
      rw [hc]
      exact nofun
  | @move past s life m stays lawful ih =>
    obtain ⟨o, ho, order⟩ := ih
    obtain ⟨o', ho', hstep⟩ := System.places_step ho m stays
    have hle := (life.weaken fun _ _ h => h.submitted).outside.handed_le
    refine ⟨o', ho', order.step hstep lawful hyoung (fun x hx hn => ?_) fun n hn => ?_⟩
    · refine (System.handedOut_step hn).resolve_right fun ⟨y, hy, he⟩ => ?_
      exact life.sound.apart (List.mem_append_left _ hx) (List.mem_append_left _ hy) he.symm
    · rcases System.handedOut_step hn with hn | ⟨x, hx, rfl⟩
      · exact hle n hn
      · exact life.sound.serial_le (System.mem_owned_of_call hx)

end Life

/-- The idle surfaces stand in the order of their ages, each of them with time left. They keep
    their order and are joined from behind, so those in front have been idle for longer. A request
    takes the one among those that fit that has been idle for longest, and the ones whose time is up
    at a maintenance tick stand in front of all others that can be used. -/
theorem idle_oldest_first [Allocator φ] {past : List (Moment φ)} {s : System φ}
    (life : Life Aging past s) (hyoung : Allocator.StartsYoung φ) :
    ∃ o, s.current = some o ∧
      s.available.Pairwise
        (fun x y => y.age ≤ x.age ∧ idleFor past y.serial ≤ idleFor past x.serial) ∧
      (∀ x ∈ s.available, x.age < o.config.maxAge) ∧
      (∀ m : Move φ, m.staysOpen = true → QueuedBehind s.row (s.step m).2.row) ∧
      (∀ earlier m later (ns : List Nat), past = earlier ++ m :: later → ns.Sublist m.after.row →
        (∀ m' ∈ later, ∀ n ∈ ns, n ∈ m'.after.row) → ns.Sublist s.row) ∧
      (o.poisoned = false →
        (∀ size, (∃ x ∈ s.available, x.fits size = true) →
          ∃ x ∈ s.available, x.fits size = true ∧
            (∀ y ∈ s.available, y.fits size = true →
              y.age ≤ x.age ∧ idleFor past y.serial ≤ idleFor past x.serial) ∧
            (s.step (.acquire size)).2.calls = .flushing (x.withFeatures x.rested) true :: s.calls ∧
            ((s.step (.acquire size)).2.step (.flushed true)).1 =
              .handed (x.withFeatures x.rested)) ∧
        s.available.filter (Surface.expires o.config.maxAge) <+:
          s.available.filter (fun x => x.valid) ∧
        ∀ x ∈ s.available,
          (x.expires o.config.maxAge = true → x.serial ∉ (s.step .collect).2.device.alive) ∧
          (x.valid = true → x.expires o.config.maxAge = false →
            x.serial ∈ (s.step .collect).2.row ∨ x.shrinkable = true)) := by
  obtain ⟨o, ho, order⟩ := life.inOrder hyoung
  have hidle : (s.places o).idle = s.available := (System.available_eq ho).symm
  have hages : OldestFirst s.available := hidle ▸ order.idle
  have hboth : s.available.Pairwise fun x y =>
      y.age ≤ x.age ∧ idleFor past y.serial ≤ idleFor past x.serial :=
    hages.and (List.pairwise_map.mp life.idleFor_row)
  refine ⟨o, ho, hboth, hidle ▸ order.young, life.queued_step,
    fun earlier m later ns hpast => life.queued hpast, fun hp => ⟨fun size hfit => ?_,
    hages.expires_prefix _, fun x hx => life.sound.collect_step ho hp hx⟩⟩
  obtain ⟨x, hx⟩ := Option.isSome_iff_exists.mp (List.find?_isSome.mpr hfit)
  obtain ⟨hfits, front, back, hsplit, hfront⟩ := List.find?_eq_some_iff_append.mp hx
  refine ⟨x, List.mem_of_find?_eq_some hx, hfits, fun y hy hyfits => ?_,
    System.acquire_first ho hp hx⟩
  rw [hsplit] at hy hboth
  rcases List.mem_append.mp hy with hy | hy
  · exact absurd hyfits (by simpa using hfront y hy)
  · rcases List.mem_cons.mp hy with rfl | hy
    · exact ⟨UInt32.le_refl _, Nat.le_refl _⟩
    · exact (List.pairwise_cons.mp (List.pairwise_append.mp hboth).2.1).1 y hy

open Scenario in
theorem Scenario.Faults.startsYoung : Allocator.StartsYoung Faults :=
  fun _ _ _ _ h => (Faults.made_spec h).2.2

open Scenario in
/-- Between the returns of two surfaces there was a maintenance tick. The first is handed out
    first. -/
theorem idle_oldest_first_of_two :
    ∃ (past : List (Moment Faults)) (s : System Faults), Life Aging past s ∧
      Allocator.StartsYoung Faults ∧ s.row = [1, 2] ∧
      s.available.map (fun x => x.age) = [1, 0] ∧ idleFor past 2 < idleFor past 1 ∧
      s.available.Pairwise (fun x y => y.age ≤ x.age ∧
        idleFor past y.serial ≤ idleFor past x.serial) ∧
      (s.step (.acquire ⟨8, 8⟩)).2.calls.map (fun c => c.surface.serial) = [1] ∧
      ∃ x ∈ s.available,
        (s.step (.acquire ⟨8, 8⟩)).2.calls = [.flushing (x.withFeatures x.rested) true] ∧
        ∀ y ∈ s.available, y.fits ⟨8, 8⟩ = true →
          idleFor past y.serial ≤ idleFor past x.serial := by
  have opened : Life Aging _ _ := .opened none (.start ({} : Faults) {} {}) rfl
  have first := (opened.move (.acquire ⟨8, 8⟩) rfl ⟨nofun, nofun⟩).move (.flushed true) rfl
    ⟨nofun, nofun⟩
  have both := (first.move (.acquire ⟨8, 8⟩) rfl ⟨nofun, nofun⟩).move (.flushed true) rfl
    ⟨nofun, nofun⟩
  have one := ((both.move (.submit 1) rfl ⟨nofun, .submit _ (by decide)⟩).move .registered rfl
    ⟨nofun, nofun⟩).move (.fire 1) rfl ⟨nofun, nofun⟩
  have older := one.move .collect rfl ⟨nofun, nofun⟩
  have life := ((older.move (.submit 2) rfl ⟨nofun, .submit _ (by decide)⟩).move .registered rfl
    ⟨nofun, nofun⟩).move (.fire 2) rfl ⟨nofun, nofun⟩
  obtain ⟨o, ho, hsorted, -, -, -, hopen⟩ := idle_oldest_first life Faults.startsYoung
  obtain rfl := Option.some.inj ho
  obtain ⟨x, hx, -, hlongest, hcalls, -⟩ := (hopen rfl).1 ⟨8, 8⟩ ⟨_, List.mem_cons_self, rfl⟩
  exact ⟨_, _, life, Faults.startsYoung, rfl, rfl, by decide, hsorted, rfl, x, hx, hcalls,
    fun y hy hfits => (hlongest y hy hfits).2⟩

end SurfaceReuse
