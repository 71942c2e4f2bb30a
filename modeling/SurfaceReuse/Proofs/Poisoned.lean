import SurfaceReuse.Proofs.Statistics
import SurfaceReuse.Proofs.Teardown

set_option autoImplicit false

/-!
A pool that a panic has poisoned. From then on until its end nothing happens to it but this: the
submissions that were between their two halves come back, each takes its own reservation away and
lets its surface go. What the pool owns stays until the pool goes.
-/

namespace SurfaceReuse

variable {φ : Type}

/-- Whether the move is a call to the pool that needs no surface. -/
def Move.isCall : Move φ → Bool
  | .acquire _ | .collect | .shrink | .report | .lastReport => true
  | .availableCount | .pendingCount | .cachedBytes | .isPending _ => true
  | _ => false

def Moment.comesBack? : Moment φ → Option BufferId
  | ⟨before, .registered, _, _⟩ => (before.calls.head?.bind Call.booking?).map Booking.id
  | _ => none

namespace Locked

/-- What is given back past the lock is the slot, and nothing else of the pool. -/
theorem forget_eq_erase (l : Locked φ) (id : BufferId) :
    (l.forget id).pool = { l.pool with pending := l.pool.pending.erase id } ∧
      (l.forget id).device.requests = l.device.requests := by
  rw [forget_eq]
  cases h : l.pool.pending.get? id with
  | none =>
    have hsame := Pending.erase_of_not_contains (Pending.not_contains_of_get? h)
    exact ⟨by rw [hsame], rfl⟩
  | some slot => cases slot <;> exact ⟨rfl, rfl⟩

end Locked

namespace System

variable {s t u : System φ} {o : OpenPool}

/-- What stays as it was of a poisoned pool, if the registrations of these ids came back. -/
structure Frozen (s t : System φ) (back : List BufferId) : Prop where
  pool : ∃ o o', s.current = some o ∧ t.current = some o' ∧ o.poisoned = true ∧
    o'.poisoned = true ∧ o'.pool.nextId = o.pool.nextId ∧ o'.pool.created = o.pool.created ∧
    o'.pool.reused = o.pool.reused ∧ o'.pool.lastReport = o.pool.lastReport
  row : t.row = s.row
  slot : ∀ id, t.desk.slot id = if id ∈ back then none else s.desk.slot id
  /-- Only submissions of old are between their two halves. -/
  bookings : t.desk.bookings <:+ s.desk.bookings
  requests : t.device.requests = s.device.requests

theorem Frozen.refl (ho : s.current = some o) (hp : o.poisoned = true) : s.Frozen s [] :=
  ⟨⟨o, o, ho, ho, hp, hp, rfl, rfl, rfl, rfl⟩, rfl, fun _ => rfl, List.suffix_refl _, rfl⟩

theorem Frozen.trans {back back' : List BufferId} (h : s.Frozen t back) (h' : t.Frozen u back') :
    s.Frozen u (back ++ back') := by
  obtain ⟨o, o₁, ho, ho₁, hp, -, hid, hc, hr, hl⟩ := h.pool
  obtain ⟨o₁', o₂, ho₁', ho₂, -, hp', hid', hc', hr', hl'⟩ := h'.pool
  obtain rfl : o₁ = o₁' := Option.some.inj (ho₁.symm.trans ho₁')
  constructor
  case pool =>
    exact ⟨o, o₂, ho, ho₂, hp, hp', hid'.trans hid, hc'.trans hc, hr'.trans hr, hl'.trans hl⟩
  case row => exact h'.row.trans h.row
  case slot =>
    intro id
    rw [h'.slot, h.slot]
    by_cases hm : id ∈ back <;> by_cases hm' : id ∈ back' <;> simp [hm, hm']
  case bookings => exact h'.bookings.trans h.bookings
  case requests => exact h'.requests.trans h.requests

/-- Nothing reached the pool, and no further call is in progress. -/
structure Aside (s t : System φ) : Prop where
  current : t.current = s.current
  calls : t.calls <:+ s.calls
  requests : t.device.requests = s.device.requests

theorem Aside.refl (s : System φ) : s.Aside s :=
  ⟨rfl, List.suffix_refl _, rfl⟩

theorem Aside.frozen (h : s.Aside t) (ho : s.current = some o) (hp : o.poisoned = true) :
    s.Frozen t [] := by
  have ho' := h.current.trans ho
  refine ⟨⟨o, o, ho, ho', hp, hp, rfl, rfl, rfl, rfl⟩, ?_, fun id => ?_, ?_, h.requests⟩
  · rw [System.row, System.row, available, available, h.current]
  · rw [t.desk_slot ho', s.desk_slot ho]
    rfl
  · exact h.calls.filterMap Call.booking?

theorem Frozen.touched (ho : s.current = some o) (hp : o.poisoned = true) (serial : Nat)
    (change : Features → Features) : s.Frozen (s.touch serial change) [] := by
  have hdesk := s.desk_touch serial change
  have hcurrent : (s.touch serial change).current =
      some { o with pool := o.pool.mapSurfaces (Surface.touch serial change) } := by
    unfold touch
    rw [ho]
    rfl
  refine ⟨⟨o, _, ho, hcurrent, hp, hp, rfl, rfl, rfl, rfl⟩, ?_, fun id => ?_, ?_, rfl⟩
  · rw [System.row, System.row, available_eq ho, available_eq hcurrent]
    change (o.pool.available.map _).map Surface.serial = _
    rw [List.map_map]
    exact List.map_congr_left fun x _ => Surface.touch_serial serial change x
  · rw [hdesk]
    rfl
  · exact hdesk.symm ▸ List.suffix_refl _

section Poisoned

variable (ho : s.current = some o) (hp : o.poisoned = true)

include ho hp

theorem registered_poisoned {x : Surface} {id : BufferId} {n : Nat} {calls : List Call}
    (hc : s.calls = .registering x id n :: calls) :
    s.registered = (.failed .poisoned,
      ((({ s with calls } : System φ).leave o ((s.inside o).forget id)).log
        (.poisonedDuringSubmit id)).release x) := by
  rcases registered_cases hc ho with ⟨-, h⟩ | ⟨hp', -⟩
  · rw [h, abandon_eq (s := { s with calls }) ho]
    rfl
  · exact absurd (hp.symm.trans hp') (by simp)

theorem frozen_registered [Allocator φ] :
    s.Frozen s.registered.2 (s.moment .registered).comesBack?.toList := by
  rcases s.registered_awaited with ⟨hne, h⟩ | ⟨x, id, n, calls, hc⟩
  · have hnone : (s.moment (.registered : Move φ)).comesBack? = none := by
      simp only [moment, Moment.comesBack?]
      cases hs : s.calls with
      | nil => rfl
      | cons c calls =>
        cases c with
        | flushing x cached => rfl
        | registering x id n => exact absurd hs (hne x id n calls)
    rw [h, hnone]
    exact .refl ho hp
  have hback : (s.moment (.registered : Move φ)).comesBack? = some id := by
    simp [moment, Moment.comesBack?, hc, Call.booking?]
  have hforgot := (s.inside o).forget_eq_erase id
  have hslot := s.desk_erased ho id fun k => (s.inside o).forget_get? id k
  rw [registered_poisoned ho hp hc, hback]
  constructor
  case pool =>
    refine ⟨o, _, ho, rfl, hp, hp, ?_⟩
    rw [hforgot.1]
    exact ⟨rfl, rfl, rfl, rfl⟩
  case row =>
    rw [System.row, System.row, available_eq ho]
    change ((s.inside o).forget id).pool.available.map Surface.serial = _
    rw [hforgot.1]
    rfl
  case slot =>
    intro k
    refine (congrFun hslot k).trans ?_
    rw [Function.update_apply]
    simp
  case bookings =>
    rw [s.desk_return hc]
    exact List.suffix_cons _ _
  case requests => exact hforgot.2

theorem submit_poisoned (serial : Nat) :
    (s.takeHeld? serial = none ∧ s.submit serial = (.refused, s)) ∨
    ∃ x t, s.takeHeld? serial = some (x, t) ∧
      s.submit serial = (.failed .poisoned, t.release x) := by
  rcases s.submit_cases serial with ⟨hnone, h⟩ |
    ⟨o', x, t, ho', ht, ⟨-, h⟩ | ⟨hp', -⟩ | ⟨hp', -⟩⟩
  · exact .inl ⟨hnone.resolve_left fun hn => absurd (ho.symm.trans hn) (by simp), h⟩
  · exact .inr ⟨x, t, ht, h⟩
  all_goals
    obtain rfl : o = o' := Option.some.inj (ho.symm.trans ho')
    exact absurd (hp.symm.trans hp') (by simp)

theorem fire_poisoned (hook : Nat) :
    s.fire hook = (.refused, s) ∨ ∃ h ∈ s.hooks, h.number = hook ∧ ∃ journal,
      s.fire hook = (.done, { s with hooks := s.hooks.erase h, journal }) := by
  rcases s.fire_cases hook with h | ⟨h, hm, hn, hf⟩
  · exact .inl h
  refine .inr ⟨h, hm, hn, ?_⟩
  rw [hf]
  rcases ({ s with hooks := s.hooks.erase h } : System φ).deliver_cases h with
    ⟨-, hd⟩ | ⟨o', ho', -, ⟨-, hd⟩ | ⟨hp', -⟩⟩
  · exact ⟨s.journal, by rw [hd]⟩
  · exact ⟨_, by rw [hd]; rfl⟩
  · obtain rfl : o = o' := Option.some.inj (ho.symm.trans ho')
    exact absurd (hp.symm.trans hp') (by simp)

variable [Allocator φ]

theorem call_poisoned {m : Move φ} (hm : m.isCall = true) :
    (s.step m).1 = .failed .poisoned ∧ ∃ journal, (s.step m).2 = { s with journal } := by
  have hperform : ∀ body : OpenPool → Locked φ → Ending Unit × Locked φ,
      s.perform body = (.failed .poisoned, s) := by
    intro body
    unfold perform
    rw [locked_poisoned ho hp]
    rfl
  have hinspect : ∀ look : Pool → Reply, s.inspect look = .failed .poisoned := by
    intro look
    rw [inspect_eq ho, if_pos hp]
  cases m with
  | acquire size =>
    rcases acquire_cases ho size with ⟨-, h⟩ | ⟨hp', -⟩
    · exact ⟨congrArg Prod.fst h, _, congrArg Prod.snd h⟩
    · exact absurd (hp.symm.trans hp') (by simp)
  | collect =>
    have h := hperform fun o l => l.collect o.config.maxAge
    exact ⟨congrArg Prod.fst h, s.journal, congrArg Prod.snd h⟩
  | shrink =>
    have h := hperform fun _ l => l.shrink
    exact ⟨congrArg Prod.fst h, s.journal, congrArg Prod.snd h⟩
  | report =>
    have h := locked_poisoned ho hp fun _ l => (Ending.ok l.report.pool.lastReport, l.report)
    exact ⟨congrArg (fun r => r.1.reply Reply.stats) h, s.journal, congrArg Prod.snd h⟩
  | lastReport => exact ⟨hinspect fun p => .stats p.lastReport, s.journal, rfl⟩
  | availableCount => exact ⟨hinspect fun p => .count p.available.length, s.journal, rfl⟩
  | pendingCount => exact ⟨hinspect fun p => .count p.pending.size, s.journal, rfl⟩
  | cachedBytes => exact ⟨hinspect fun p => .bytes p.cachedBytes, s.journal, rfl⟩
  | isPending id => exact ⟨hinspect fun p => .flag (p.pending.contains id), s.journal, rfl⟩
  | _ => exact absurd hm (by simp [Move.isCall])

omit [Allocator φ] in
theorem aside_flushed (ok : Bool) : s.Aside (s.flushed ok).2 := by
  rcases s.flushed_awaited ok with ⟨-, h⟩ | ⟨x, cached, calls, hc⟩
  · rw [h]
    exact .refl s
  have hcalls : calls <:+ s.calls := hc ▸ List.suffix_cons _ _
  rcases flushed_cases hc ho ok with ⟨-, h⟩ | ⟨-, -, h⟩ | ⟨-, -, -, h⟩ | ⟨-, -, hp', -⟩
  · rw [h]
    exact ⟨rfl, hcalls, rfl⟩
  · rw [h]
    exact ⟨rfl, hcalls, rfl⟩
  · rw [h]
    exact ⟨rfl, hcalls, rfl⟩
  · exact absurd (hp.symm.trans hp') (by simp)

omit [Allocator φ] ho hp in
theorem aside_unwind : s.Aside s.unwind.2 := by
  rcases s.unwind_cases with h | ⟨c, calls, hc, h⟩
  · rw [h]
    exact .refl s
  · rw [h]
    exact ⟨rfl, hc ▸ List.suffix_cons _ _, rfl⟩

omit [Allocator φ] ho hp in
theorem aside_drop (serial : Nat) : s.Aside (s.drop serial).2 := by
  rcases s.drop_cases serial with h | ⟨x, h⟩
  all_goals
    rw [h]
    exact ⟨rfl, List.suffix_refl _, rfl⟩

/-- Only registrations that come back reach a poisoned pool, and surfaces that change do so in
    whatever place they are. -/
theorem aside_step (m : Move φ) (stays : m.staysOpen = true) (hback : m ≠ .registered)
    (htouch : ∀ serial change, m ≠ .touch serial change) : s.Aside (s.step m).2 := by
  by_cases hcall : m.isCall = true
  · obtain ⟨-, journal, h⟩ := call_poisoned ho hp hcall
    rw [h]
    exact ⟨rfl, List.suffix_refl _, rfl⟩
  cases m with
  | openPool config => exact absurd stays (by simp [Move.staysOpen])
  | closePool => exact absurd stays (by simp [Move.staysOpen])
  | registered => exact absurd rfl hback
  | touch serial change => exact absurd rfl (htouch serial change)
  | flushed ok => exact aside_flushed ho hp ok
  | submit serial =>
    change s.Aside (s.submit serial).2
    rcases submit_poisoned ho hp serial with ⟨-, h⟩ | ⟨x, t, ht, h⟩
    · rw [h]
      exact .refl s
    · obtain ⟨-, -, rfl⟩ := takeHeld_eq_some ht
      rw [h]
      exact ⟨rfl, List.suffix_refl _, rfl⟩
  | unwind => exact aside_unwind
  | fire hook =>
    change s.Aside (s.fire hook).2
    rcases fire_poisoned ho hp hook with h | ⟨k, -, -, journal, h⟩
    · rw [h]
      exact .refl s
    · rw [h]
      exact ⟨rfl, List.suffix_refl _, rfl⟩
  | drop serial => exact aside_drop serial
  | build features | adjust change | reportUsage usage => exact ⟨rfl, List.suffix_refl _, rfl⟩
  | _ => exact absurd rfl hcall

theorem frozen_step (m : Move φ) (stays : m.staysOpen = true) :
    s.Frozen (s.step m).2 (s.moment m).comesBack?.toList := by
  by_cases hback : m = .registered
  · rw [hback]
    exact frozen_registered ho hp
  have hnone : (s.moment m).comesBack? = none := by
    cases m with
    | registered => exact absurd rfl hback
    | _ => rfl
  rw [hnone]
  by_cases htouch : ∃ serial change, m = .touch serial change
  · obtain ⟨serial, change, rfl⟩ := htouch
    exact .touched ho hp serial change
  · refine (aside_step ho hp m stays hback fun serial change he => ?_).frozen ho hp
    exact htouch ⟨serial, change, he⟩

end Poisoned

/-- What can still happen as long as a poisoned pool is in use. -/
structure OutOfService [Allocator φ] (s : System φ) : Prop where
  calls_fail : ∀ m : Move φ, m.isCall = true →
    (s.step m).1 = .failed .poisoned ∧ ∃ journal, (s.step m).2 = { s with journal }
  /-- A surface that is submitted gets no hook and goes down. -/
  submissions_fail : ∀ x ∈ s.held,
    (s.step (.submit x.serial)).1 = .failed .poisoned ∧
      (s.step (.submit x.serial)).2.hooks = s.hooks ∧
      x.serial ∉ (s.step (.submit x.serial)).2.device.alive
  /-- A surface that comes back from its registration goes down, and its slot is taken away. -/
  registrations_fail : ∀ x id n calls, s.calls = .registering x id n :: calls →
    (s.step .registered).1 = .failed .poisoned ∧
      x.serial ∉ (s.step .registered).2.device.alive ∧
      (s.step .registered).2.current = s.current.map fun o =>
        { o with pool := { o.pool with pending := o.pool.pending.erase id } }
  hooks_unheard : ∀ k ∈ s.hooks, ∃ journal,
    (s.step (.fire k.number)).2 = { s with hooks := s.hooks.erase k, journal }
  /-- Apart from these registrations, only surfaces change, in whatever place they are. -/
  pool_stays : ∀ m : Move φ, m.staysOpen = true → m ≠ .registered →
    (∀ serial change, m ≠ .touch serial change) → (s.step m).2.current = s.current
  owned_alive : ∀ x ∈ s.available ++ s.parked, x.serial ∈ s.device.alive
  /-- The end of the pool is the end of what it owns. -/
  ended : ∀ m : Move φ, m.staysOpen = false → (s.step m).1 = .done → ∀ n,
    n ∈ (s.step m).2.device.alive ↔
      n ∈ s.device.alive ∧ n ∉ (s.available ++ s.parked).map Surface.serial

theorem Sound.outOfService [Allocator φ] (sound : s.Sound) (ho : s.current = some o)
    (hp : o.poisoned = true) : s.OutOfService := by
  have halive := sound.alive_nodup
  constructor
  case calls_fail => exact fun m hm => call_poisoned ho hp hm
  case submissions_fail =>
    intro x hx
    rcases submit_poisoned ho hp x.serial with ⟨hnone, -⟩ | ⟨y, t, ht, h⟩
    · have hfind : s.held.find? (fun y => y.serial == x.serial) = none := by
        simpa [takeHeld?] using hnone
      exact absurd (beq_self_eq_true x.serial) (List.find?_eq_none.mp hfind x hx)
    · obtain ⟨-, hserial, rfl⟩ := takeHeld_eq_some ht
      refine ⟨congrArg Prod.fst h, congrArg (fun r => r.2.hooks) h, ?_⟩
      change x.serial ∉ (s.submit x.serial).2.device.alive
      rw [h, ← hserial]
      exact halive.not_mem_erase
  case registrations_fail =>
    intro x id n calls hc
    have h := registered_poisoned ho hp hc
    have hforgot := (s.inside o).forget_eq_erase id
    refine ⟨congrArg Prod.fst h, ?_, ?_⟩
    · change x.serial ∉ s.registered.2.device.alive
      rw [h]
      exact ((s.inside o).forget_alive id halive).1.not_mem_erase
    · change s.registered.2.current = _
      rw [h, ho]
      change some { o with pool := ((s.inside o).forget id).pool } = _
      rw [hforgot.1]
      rfl
  case hooks_unheard =>
    intro k hk
    have hfire := fire_of_mem sound.numbered hk
    rcases fire_poisoned ho hp k.number with h | ⟨k', hk', hn, journal, h⟩
    · exact absurd (congrArg Prod.fst (hfire.symm.trans h)) (by simp)
    · obtain rfl := List.inj_on_of_nodup_map sound.numbered.nodup hk' hk hn
      exact ⟨journal, congrArg Prod.snd h⟩
  case pool_stays =>
    exact fun m stays hback htouch => (aside_step ho hp m stays hback htouch).current
  case owned_alive =>
    exact fun x hx => sound.mem_alive (mem_owned_of_pooled (s.pooled_eq ▸ hx))
  case ended => exact fun m ends ok => sound.alive_ended ends ok

end System

namespace Life

variable [Allocator φ] {law : List (Moment φ) → Moment φ → Prop} {past : List (Moment φ)}
  {s : System φ}

theorem frozen (life : Life law past s) {earlier later : List (Moment φ)} {m : Moment φ}
    (hpast : past = earlier ++ m :: later) {o : OpenPool} (ho : m.after.current = some o)
    (hp : o.poisoned = true) : m.after.Frozen s (later.filterMap Moment.comesBack?) := by
  refine life.since hpast (P := fun between t =>
    m.after.Frozen t (between.filterMap Moment.comesBack?)) (.refl ho hp) ?_
  intro between t m' _ stays _ ih
  obtain ⟨-, o', -, ho', -, hp', -⟩ := ih.pool
  have hone : [t.moment m'].filterMap Moment.comesBack? = (t.moment m').comesBack?.toList := by
    cases h : (t.moment m').comesBack? <;> simp [h]
  rw [List.filterMap_append, hone]
  exact ih.trans (System.frozen_step ho' hp' m' stays)

end Life

/-- A panic of the device freezes the pool. Since then nothing was asked of the device, the idle
    surfaces and the counters are what they were, and so is every slot but those of registrations
    that came back; and until the pool ends, all calls fail and hooks have no effect. -/
theorem poisoned_frozen [Allocator φ] {law : List (Moment φ) → Moment φ → Prop}
    {past earlier later : List (Moment φ)} {m : Moment φ} {s : System φ} (life : Life law past s)
    (hpast : past = earlier ++ m :: later) (hpanic : m.requested.any Request.isPanic = true) :
    m.after.Frozen s (later.filterMap Moment.comesBack?) ∧ s.OutOfService := by
  obtain ⟨o, ho, hexact⟩ := (life.upto hpast).exact
  have hp : o.poisoned = true := by
    rw [hexact.poisoned, requested_append, List.any_append, hpanic, Bool.or_true]
  have hfrozen := life.frozen hpast ho hp
  obtain ⟨-, o', -, ho', -, hp', -⟩ := hfrozen.pool
  exact ⟨hfrozen, life.sound.outOfService ho' hp'⟩

open Scenario in
/-- Surface 1 is idle, 2 waits, and 3 is being submitted when the device panics. The hook of 2 is
    called in vain, and the slot of 3 is taken away when its registration comes back. -/
theorem poisoned_frozen_of_three :
    ∃ (past earlier later : List (Moment Faults)) (m : Moment Faults) (s : System Faults),
      Life (fun _ _ => True) past s ∧ past = earlier ++ m :: later ∧
      m.requested.any Request.isPanic = true ∧
      later.filterMap Moment.comesBack? = [⟨3⟩] ∧
      s.row = [1] ∧ s.parked.map Surface.serial = [2] ∧ s.device.alive = [2, 1] ∧
      m.after.Frozen s (later.filterMap Moment.comesBack?) ∧ s.OutOfService := by
  have opened : Life (fun _ _ => True) _ _ := .opened none (.start ({} : Faults) {} {}) rfl
  have first := (opened.move (.acquire ⟨8, 8⟩) rfl trivial).move (.flushed true) rfl trivial
  have second := (first.move (.acquire ⟨8, 8⟩) rfl trivial).move (.flushed true) rfl trivial
  have third := (second.move (.acquire ⟨8, 8⟩) rfl trivial).move (.flushed true) rfl trivial
  have idle := ((third.move (.submit 1) rfl trivial).move .registered rfl trivial).move (.fire 1)
    rfl trivial
  have waiting := (idle.move (.submit 2) rfl trivial).move .registered rfl trivial
  have between := (waiting.move (.submit 3) rfl trivial).move
    (.adjust fun a => { a with panic := true }) rfl trivial
  have panicked := between.move (.acquire ⟨16, 16⟩) rfl trivial
  have life := (panicked.move (.fire 2) rfl trivial).move .registered rfl trivial
  have hsplit : ∀ (xs : List (Moment Faults)) (a b c : Moment Faults),
      xs ++ [a] ++ [b] ++ [c] = xs ++ a :: [b, c] := by simp
  obtain ⟨hfrozen, hout⟩ := poisoned_frozen life (hsplit _ _ _ _) (by decide)
  exact ⟨_, _, _, _, _, life, hsplit _ _ _ _, by decide, by decide, by decide, by decide, by decide,
    hfrozen, hout⟩

end SurfaceReuse
