import SurfaceReuse.Proofs.IdleAges
import SurfaceReuse.Proofs.Statistics

set_option autoImplicit false

/-!
How long an idle surface is kept. It enters the set with age 0, only maintenance ticks make it
older, and the tick that brings its age to the limit lets go of it. So its time is counted in ticks
from the move that made it idle, whatever else happens and however often it was out before.
-/

namespace SurfaceReuse

variable {φ : Type}

def Moment.isTick : Moment φ → Bool
  | ⟨_, .collect, .done, _⟩ => true
  | _ => false

def ticks (later : List (Moment φ)) : Nat :=
  later.countP Moment.isTick

/-- As long as the surface is idle, it can be used and needs no more memory than its size, and no
    request takes it. -/
structure Undisturbed (n : Nat) (later : List (Moment φ)) : Prop where
  fit : ∀ m ∈ later, ∀ x ∈ m.before.available, x.serial = n →
    x.valid = true ∧ x.oversized = false
  untaken : ∀ m ∈ later, m.taken?.map Prod.fst ≠ some n

theorem ticks_append (later : List (Moment φ)) (m : Moment φ) :
    ticks (later ++ [m]) = ticks later + if m.isTick then 1 else 0 := by
  simp [ticks, List.countP_append, List.countP_singleton]

theorem Undisturbed.append {n : Nat} {later : List (Moment φ)} {m : Moment φ} :
    Undisturbed n (later ++ [m]) ↔
      Undisturbed n later ∧ (∀ x ∈ m.before.available, x.serial = n →
        x.valid = true ∧ x.oversized = false) ∧ m.taken?.map Prod.fst ≠ some n := by
  constructor
  · intro h
    have hm : m ∈ later ++ [m] := by simp
    exact ⟨⟨fun m' hm' => h.fit m' (by simp [hm']), fun m' hm' => h.untaken m' (by simp [hm'])⟩,
      h.fit m hm, h.untaken m hm⟩
  · rintro ⟨h, hfit, huntaken⟩
    constructor
    all_goals
      intro m' hm'
      rcases List.mem_append.mp hm' with hm' | hm'
    · exact h.fit m' hm'
    · exact List.mem_singleton.mp hm' ▸ hfit
    · exact h.untaken m' hm'
    · exact List.mem_singleton.mp hm' ▸ huntaken

theorem Surface.older_age_succ {x : Surface} (limit : UInt32) (h : x.age.toNat + 1 ≤ limit.toNat) :
    x.older.age.toNat = x.age.toNat + 1 := by
  have hlt := limit.toNat_lt
  rw [Features.older_age, if_neg (by omega)]

namespace Places

variable [Allocator φ] {s : System φ} {m : Move φ} {p p' : Places} {x : Surface}

/-- Between the ticks an idle surface stays idle and gets no older. -/
theorem Step.stays (h : Step s m p p') (hx : x ∈ p.idle) (hfit : x.oversized = false)
    (hage : ∀ serial change, m = .touch serial change → ∀ f : Features, (change f).age = f.age)
    (htick : m ≠ .collect)
    (huntaken : ∀ size, m = .acquire size → p.idle.find? (Surface.fits size) ≠ some x) :
    ∃ y ∈ p'.idle, y.serial = x.serial ∧ y.age = x.age := by
  cases h with
  | gone | made | handed | submitted | parted | built => exact ⟨x, hx, rfl, rfl⟩
  | @found size y hm hy =>
    have hne : x ≠ y := fun he => huntaken size hm (he ▸ hy)
    have hmem := (eraseP_perm _ _ _ hy).mem_iff.mp hx
    exact ⟨x, (List.mem_cons.mp hmem).resolve_left hne, rfl, rfl⟩
  | recycled => exact ⟨x, List.mem_append_left _ hx, rfl, rfl⟩
  | collected hm => exact absurd hm htick
  | shrunk =>
    have hkept : x ∈ p.idle.filter fun y => !y.oversized := by simp [hx, hfit]
    exact ⟨x, List.mem_append_left _ hkept, rfl, rfl⟩
  | @touched serial change hm =>
    exact ⟨_, List.mem_map_of_mem hx, Surface.touch_serial serial change x,
      Surface.touch_age (hage serial change hm) x⟩

end Places

namespace Locked

variable [Allocator φ]

theorem collect_ending (l : Locked φ) (maxAge : UInt32) :
    (l.collect maxAge).1 = .ok () ∨ (l.collect maxAge).1 = .panicked := by
  have hreplenish : ∀ (l : Locked φ) size note,
      (l.replenish size note).1 = .ok () ∨ (l.replenish size note).1 = .panicked := by
    intro l size note
    rw [replenish_eq]
    split <;> simp
  rw [collect_eq]
  unfold shrinkFirst
  split
  · exact .inl rfl
  · exact hreplenish _ _ _

end Locked

namespace System

variable {s : System φ} {o : OpenPool} {n : Nat}

theorem Recycles.away {m : Move φ} {x : Surface} (hr : s.Recycles m x) (ho : s.current = some o) :
    x ∈ (s.places o).away := by
  obtain ⟨o', ho', -, h⟩ := hr
  obtain rfl : o = o' := Option.some.inj (ho.symm.trans ho')
  rcases h with ⟨k, -, -, -, hslot⟩ | ⟨id, number, calls, -, hc, -⟩
  · exact List.mem_append_right _ ((Pending.mem_values_iff _ _).mpr ⟨k.id, hslot⟩)
  · rw [s.away_of_call hc o]
    exact List.mem_cons_self

variable [Allocator φ]

/-- Unless it panics, a maintenance tick on a pool that is not poisoned succeeds. -/
theorem collect_done (ho : s.current = some o) (hp : o.poisoned = false) {o' : OpenPool}
    (ho' : (s.step .collect).2.current = some o') (hp' : o'.poisoned = false) :
    (s.step .collect).1 = .done := by
  let body : OpenPool → Locked φ → Ending Unit × Locked φ := fun o l => l.collect o.config.maxAge
  change (s.locked body).2.current = _ at ho'
  change (s.locked body).1.reply _ = _
  rw [locked_open ho hp] at ho' ⊢
  obtain rfl := Option.some.inj ho'
  rcases (s.inside o).collect_ending o.config.maxAge with h | h
  · change (Section.ended ((s.inside o).collect o.config.maxAge).1).reply _ = _
    rw [h]
    rfl
  · change ((s.inside o).collect o.config.maxAge).1.isPanic = false at hp'
    rw [h] at hp'
    exact absurd hp' (by simp [Ending.isPanic])

theorem find_ne_of_untaken (sound : s.Sound) (ho : s.current = some o) (hp : o.poisoned = false)
    {size : Size} {x : Surface}
    (h : (s.moment (.acquire size)).taken?.map Prod.fst ≠ some x.serial) :
    s.available.find? (Surface.fits size) ≠ some x := by
  intro hx
  obtain ⟨hcalls, -⟩ := acquire_first ho hp hx
  have hmarks : (s.acquire size).2.marks = (x.serial, true) :: s.marks := by
    unfold marks
    rw [hcalls]
    rfl
  rcases marks_acquire sound ho size with ⟨-, he⟩ | ⟨t, ht, he⟩
  · exact absurd (hmarks.symm.trans he) (by simp)
  · obtain ⟨rfl, -⟩ := List.cons.inj (hmarks.symm.trans he)
    exact h (congrArg (Option.map Prod.fst) ht)

/-- So many ticks after it became idle the surface is as old as that, or its time is over. -/
structure Aged (s : System φ) (n limit elapsed : Nat) : Prop where
  known : n ≤ s.device.built
  idle : elapsed < limit → ∃ x ∈ s.available, x.serial = n ∧ x.age.toNat = elapsed
  gone : limit ≤ elapsed → n ∉ s.device.alive

namespace Aged

variable {limit elapsed : Nat}

omit [Allocator φ] in
theorem row_iff (h : s.Aged n limit elapsed) (sound : s.Sound) :
    n ∈ s.row ↔ elapsed < limit := by
  constructor
  · intro hn
    obtain ⟨x, hx, rfl⟩ := List.mem_map.mp hn
    have halive := sound.mem_alive (s.owned_perm.mem_iff.mpr
      (List.mem_append_left _ (List.mem_append_right _ hx)))
    by_contra hle
    exact h.gone (by omega) halive
  · intro hlt
    obtain ⟨x, hx, rfl, -⟩ := h.idle hlt
    exact List.mem_map_of_mem hx

omit [Allocator φ] in
theorem alive_iff (h : s.Aged n limit elapsed) (sound : s.Sound) :
    n ∈ s.device.alive ↔ elapsed < limit := by
  constructor
  · intro halive
    by_contra hle
    exact h.gone (by omega) halive
  · intro hlt
    obtain ⟨x, hx, rfl, -⟩ := h.idle hlt
    exact sound.mem_alive (s.owned_perm.mem_iff.mpr
      (List.mem_append_left _ (List.mem_append_right _ hx)))

theorem step_gone (h : s.Aged n limit elapsed) (sound : s.Sound) (m : Move φ)
    (stays : m.staysOpen = true) (hle : limit ≤ elapsed) : n ∉ (s.step m).2.device.alive :=
  fun halive => h.gone hle ((sound.grown_step m stays).2 n halive h.known)

theorem step_tick (h : s.Aged n o.config.maxAge.toNat elapsed) (sound : s.Sound)
    (ho : s.current = some o) (hp : o.poisoned = false)
    (hfit : ∀ x ∈ s.available, x.serial = n → x.valid = true ∧ x.oversized = false) :
    (s.step .collect).2.Aged n o.config.maxAge.toNat (elapsed + 1) := by
  constructor
  case known => exact Nat.le_trans h.known (sound.grown_step .collect rfl).1
  case idle =>
    intro hlt
    obtain ⟨x, hx, rfl, rfl⟩ := h.idle (by omega)
    obtain ⟨hv, hs⟩ := hfit x hx rfl
    have hage : x.older.age.toNat = x.age.toNat + 1 :=
      Surface.older_age_succ o.config.maxAge (by omega)
    have hkeep : x.older.age < o.config.maxAge := by
      rw [UInt32.lt_iff_toNat_lt]
      omega
    obtain ⟨p, l, made, he, -, hidle, -⟩ := collect_leaves ho hp
    have hticked : x.withFeatures x.older ∈
        o.pool.available.filterMap (Surface.tick? o.config.maxAge) :=
      List.mem_filterMap.mpr ⟨x, available_eq ho ▸ hx, by simp [Surface.tick?, hv, hkeep]⟩
    have hkept := (List.mem_eraseP_of_neg (p := Surface.shrinkable) (a := x.withFeatures x.older)
      (by simp [Surface.shrinkable, Surface.withFeatures, Features.older, hs])).mpr hticked
    refine ⟨x.withFeatures x.older, ?_, rfl, hage⟩
    rw [he]
    change _ ∈ l.pool.available
    rw [hidle]
    exact List.mem_append_left _ hkept
  case gone =>
    intro hle
    by_cases hover : o.config.maxAge.toNat ≤ elapsed
    · exact h.step_gone sound .collect rfl hover
    · obtain ⟨x, hx, rfl, rfl⟩ := h.idle (by omega)
      obtain ⟨hv, -⟩ := hfit x hx rfl
      have hage : x.older.age.toNat = x.age.toNat + 1 :=
        Surface.older_age_succ o.config.maxAge (by omega)
      have hexp : x.expires o.config.maxAge = true := by
        simp only [Surface.expires, hv, Bool.true_and, Bool.not_eq_true', decide_eq_false_iff_not,
          UInt32.lt_iff_toNat_lt]
        omega
      exact (sound.collect_step ho hp hx).1 hexp

theorem step_other (h : s.Aged n limit elapsed) (sound : s.Sound) (ho : s.current = some o)
    (hp : o.poisoned = false) {m : Move φ} (stays : m.staysOpen = true) (htick : m ≠ .collect)
    (hage : ∀ serial change, m = .touch serial change → ∀ f : Features, (change f).age = f.age)
    (hfit : ∀ x ∈ s.available, x.serial = n → x.valid = true ∧ x.oversized = false)
    (huntaken : (s.moment m).taken?.map Prod.fst ≠ some n) :
    (s.step m).2.Aged n limit elapsed := by
  constructor
  case known => exact Nat.le_trans h.known (sound.grown_step m stays).1
  case idle =>
    intro hlt
    obtain ⟨x, hx, rfl, hxage⟩ := h.idle hlt
    obtain ⟨o', ho', hstep⟩ := places_step ho m stays
    rw [available_eq ho] at hx
    have hfirst : ∀ size, m = .acquire size →
        (s.places o).idle.find? (Surface.fits size) ≠ some x := by
      rintro size rfl
      rw [← show s.available = (s.places o).idle from available_eq ho]
      exact find_ne_of_untaken sound ho hp huntaken
    obtain ⟨y, hy, hserial, hsame⟩ :=
      hstep.stays hx (hfit x (available_eq ho ▸ hx) rfl).2 hage htick hfirst
    exact ⟨y, available_eq ho' ▸ hy, hserial, hsame ▸ hxage⟩
  case gone => exact h.step_gone sound m stays

/-- The surface gets older by the moves that are ticks, and by no other. -/
theorem step (h : s.Aged n o.config.maxAge.toNat elapsed) (sound : s.Sound)
    (ho : s.current = some o) (hp : o.poisoned = false) {m : Move φ} (stays : m.staysOpen = true)
    (hdone : m = .collect → (s.step m).1 = .done)
    (hage : ∀ serial change, m = .touch serial change → ∀ f : Features, (change f).age = f.age)
    (hfit : ∀ x ∈ s.available, x.serial = n → x.valid = true ∧ x.oversized = false)
    (huntaken : (s.moment m).taken?.map Prod.fst ≠ some n) :
    (s.step m).2.Aged n o.config.maxAge.toNat
      (elapsed + if (s.moment m).isTick then 1 else 0) := by
  by_cases htick : m = .collect
  · subst htick
    have hone : (s.moment .collect).isTick = true := by
      simp [System.moment, Moment.isTick, hdone rfl]
    rw [if_pos hone]
    exact h.step_tick sound ho hp hfit
  · have hnone : (s.moment m).isTick = false := by
      cases m with
      | collect => exact absurd rfl htick
      | _ => rfl
    rw [if_neg (by simp [hnone])]
    exact h.step_other sound ho hp stays htick hage hfit huntaken

end Aged

end System

namespace Life

variable [Allocator φ] {past : List (Moment φ)} {s : System φ}

/-- A surface is as good as new when it becomes idle. -/
theorem aged_entered (life : Life Aging past s) (hyoung : Allocator.StartsYoung φ)
    {earlier later : List (Moment φ)} {m : Moment φ} (hpast : past = earlier ++ m :: later)
    {n : Nat} (hbefore : n ∉ m.before.row) (hafter : n ∈ m.after.row) :
    ∃ o, m.after.current = some o ∧ m.after.Aged n o.config.maxAge.toNat 0 := by
  have sound := (life.upto hpast).sound
  obtain ⟨o', ho', order'⟩ := (life.upto hpast).inOrder hyoung
  refine ⟨o', ho', sound.row_le hafter, fun _ => ?_, fun hle => ?_⟩
  case refine_2 =>
    have hlimit := UInt32.lt_iff_toNat_lt.mp order'.limit
    exact absurd (Nat.lt_of_lt_of_le hlimit hle) (Nat.lt_irrefl _)
  obtain ⟨x, hx, rfl⟩ := List.mem_map.mp hafter
  refine ⟨x, hx, rfl, ?_⟩
  rcases life.moment_cases hpast with ⟨config, he, ok⟩ | ⟨before, stays⟩
  · rw [he] at ok hx
    obtain ⟨-, -, journal, hopen⟩ := opening ok
    have hnone : (m.before.step (.openPool config)).2.available = [] := by
      rw [hopen]
      rfl
    exact absurd hx (by simp [System.moment, hnone])
  · obtain ⟨o, ho, order⟩ := before.inOrder hyoung
    obtain ⟨o'', ho'', hstep⟩ := System.places_step ho m.move stays
    have hm := life.moment_eq (m := m) (by simp [hpast])
    have hafter' : (m.before.step m.move).2 = m.after := congrArg Moment.after hm
    rw [hafter'] at ho'' hstep
    rw [System.row_eq ho] at hbefore
    rw [System.available_eq ho''] at hx
    obtain ⟨-, hback | ⟨-, y, -, -, hmade⟩⟩ := hstep.entered hx hbefore
    · exact congrArg UInt32.toNat (order.away x (hback.away ho))
    · obtain ⟨a, id, ha⟩ := hmade.asked
      exact congrArg UInt32.toNat (hyoung a _ id _ ha)

theorem not_poisoned {law : List (Moment φ) → Moment φ → Prop} (life : Life law past s)
    (hcalm : ∀ r ∈ requested past, r.outcome ≠ .panicked) {o : OpenPool} (ho : s.current = some o) :
    o.poisoned = false := by
  obtain ⟨o', ho', hexact⟩ := life.exact
  obtain rfl := Option.some.inj (ho.symm.trans ho')
  rw [hexact.poisoned, List.any_eq_false]
  intro r hr
  simpa [Request.isPanic] using hcalm r hr

/-- The age of an idle surface counts the ticks since, from one move to the next. -/
theorem aged (life : Life Aging past s) {earlier later : List (Moment φ)} {m : Moment φ}
    (hpast : past = earlier ++ m :: later) {n limit : Nat}
    (hcalm : ∀ r ∈ requested past, r.outcome ≠ .panicked) (hleft : Undisturbed n later)
    (start : ∃ o, m.after.current = some o ∧ o.config.maxAge.toNat = limit ∧
      m.after.Aged n limit 0) :
    (∃ o, s.current = some o ∧ o.config.maxAge.toNat = limit ∧ s.Aged n limit (ticks later)) ∧
      ∀ m' ∈ later, m'.move = .collect → m'.reply = .done := by
  subst hpast
  refine life.since rfl (P := fun between t =>
    (∀ r ∈ requested (earlier ++ m :: between), r.outcome ≠ .panicked) → Undisturbed n between →
      (∃ o, t.current = some o ∧ o.config.maxAge.toNat = limit ∧ t.Aged n limit (ticks between)) ∧
        ∀ m' ∈ between, m'.move = .collect → m'.reply = .done)
    (fun _ _ => ⟨start, by simp⟩) ?_ hcalm hleft
  intro between t m' lifeThen stays lawful ih hcalm hleft
  have lifeNow := lifeThen.move m' stays lawful
  have hsplit : earlier ++ m :: (between ++ [t.moment m']) =
      (earlier ++ m :: between) ++ [t.moment m'] := by simp
  rw [hsplit] at hcalm
  have hcalmThen : ∀ r ∈ requested (earlier ++ m :: between), r.outcome ≠ .panicked :=
    fun r hr => hcalm r (by rw [requested_append]; exact List.mem_append_left _ hr)
  obtain ⟨hleftThen, hfit, huntaken⟩ := Undisturbed.append.mp hleft
  obtain ⟨⟨o, ho, hlimit, haged⟩, hdone⟩ := ih hcalmThen hleftThen
  have hp := lifeThen.not_poisoned hcalmThen ho
  obtain ⟨o', ho', hstep⟩ := System.places_step ho m' stays
  have hconfig : o'.config = o.config := hstep.limits.1
  have hreply : m' = .collect → (t.step m').1 = .done := by
    rintro rfl
    exact System.collect_done ho hp ho' (lifeNow.not_poisoned hcalm ho')
  constructor
  · refine ⟨o', ho', hconfig ▸ hlimit, ?_⟩
    rw [ticks_append]
    subst hlimit
    exact haged.step lifeThen.sound ho hp stays hreply lawful.sameAge hfit huntaken
  · intro k hk
    rcases List.mem_append.mp hk with hk | hk
    · exact hdone k hk
    · obtain rfl := List.mem_singleton.mp hk
      exact hreply

end Life

/-- An idle surface that nobody takes and that stays as it should be is kept for exactly as many
    ticks as the limit says, counted from the move that made it idle; the last of them lets go of
    it. Every tick in that time succeeds, and what was before does not count. -/
theorem idle_lifetime_exact [Allocator φ] {past : List (Moment φ)} {s : System φ}
    (life : Life Aging past s) (hyoung : Allocator.StartsYoung φ)
    (hcalm : ∀ r ∈ requested past, r.outcome ≠ .panicked) {earlier later : List (Moment φ)}
    {m : Moment φ} (hpast : past = earlier ++ m :: later) {n : Nat} (hbefore : n ∉ m.before.row)
    (hafter : n ∈ m.after.row) (hleft : Undisturbed n later) :
    ∃ o, s.current = some o ∧ (∀ m' ∈ later, m'.move = .collect → m'.reply = .done) ∧
      (n ∈ s.row ↔ ticks later < o.config.maxAge.toNat) ∧
      (n ∈ s.device.alive ↔ ticks later < o.config.maxAge.toNat) := by
  obtain ⟨o, ho, hstart⟩ := life.aged_entered hyoung hpast hbefore hafter
  obtain ⟨⟨o', ho', hlimit, haged⟩, hdone⟩ := life.aged hpast hcalm hleft ⟨o, ho, rfl, hstart⟩
  rw [← hlimit] at haged
  exact ⟨o', ho', hdone, haged.row_iff life.sound, haged.alive_iff life.sound⟩

open Scenario in
/-- Ticks while the surface is out do not count. After two ticks in the set it is still there,
    though another one was handed out in between and all oversized ones were replaced; the third
    tick is the last. -/
theorem idle_lifetime_exact_of_three_ticks :
    ∃ (past : List (Moment Faults)) (s : System Faults), Life Aging past s ∧
      ∃ earlier m later, past ++ [s.moment .collect] = earlier ++ m :: later ∧
        1 ∉ m.before.row ∧ 1 ∈ m.after.row ∧ Undisturbed 1 later ∧ ticks earlier = 2 ∧
        ticks later = 3 ∧ 1 ∈ s.row ∧ 1 ∉ (s.step .collect).2.device.alive := by
  have opened : Life Aging _ _ := .opened none (.start ({} : Faults) {} {}) rfl
  have out := ((opened.move (.acquire ⟨8, 8⟩) rfl ⟨nofun, nofun⟩).move (.flushed true) rfl
    ⟨nofun, nofun⟩).move .collect rfl ⟨nofun, nofun⟩
  have waiting := ((out.move (.submit 1) rfl ⟨nofun, .submit _ (by decide)⟩).move .registered rfl
    ⟨nofun, nofun⟩).move .collect rfl ⟨nofun, nofun⟩
  have once := (waiting.move (.fire 1) rfl ⟨nofun, nofun⟩).move .collect rfl ⟨nofun, nofun⟩
  have other := ((once.move (.acquire ⟨4, 4⟩) rfl ⟨nofun, nofun⟩).move .report rfl
    ⟨nofun, nofun⟩).move (.flushed true) rfl ⟨nofun, nofun⟩
  have twice := (other.move .shrink rfl ⟨nofun, nofun⟩).move .collect rfl ⟨nofun, nofun⟩
  have thrice := twice.move .collect rfl ⟨nofun, nofun⟩
  have hsplit : ∀ (p : List (Moment Faults)) (k a b c d e f g : Moment Faults),
      p ++ [k] ++ [a] ++ [b] ++ [c] ++ [d] ++ [e] ++ [f] ++ [g] =
        p ++ k :: [a, b, c, d, e, f, g] := by simp
  obtain ⟨o, ho, -, -, halive⟩ := @idle_lifetime_exact _ _ _ _ thrice Faults.startsYoung (by decide)
    _ _ _ (hsplit _ _ _ _ _ _ _ _ _) 1 (by decide) (by decide) ⟨by decide, by decide⟩
  obtain rfl := Option.some.inj ho
  refine ⟨_, _, twice, _, _, _, hsplit _ _ _ _ _ _ _ _ _, by decide, by decide,
    ⟨by decide, by decide⟩, by decide, by decide, by decide, ?_⟩
  exact fun hn => absurd (halive.mp hn) (by decide)

end SurfaceReuse
