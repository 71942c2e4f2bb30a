import SurfaceReuse.Pending.Lemmas
import SurfaceReuse.Pool.Lemmas
import SurfaceReuse.System.Move

set_option autoImplicit false

/-!
How a section under the lock can go, and what moves leave alone.
-/

namespace SurfaceReuse

variable {φ : Type}

/-- Whether the move leaves it to others to open and close pools. -/
def Move.staysOpen : Move φ → Bool
  | .openPool _ | .closePool => false
  | _ => true

namespace System

theorem locked_poisoned {α : Type} {s : System φ} {o : OpenPool} (ho : s.current = some o)
    (hp : o.poisoned = true) (body : OpenPool → Locked φ → Ending α × Locked φ) :
    s.locked body = (.ended (.failed .poisoned), s) := by
  unfold locked
  rw [ho]
  exact if_pos hp

theorem locked_open {α : Type} {s : System φ} {o : OpenPool} (ho : s.current = some o)
    (hp : o.poisoned = false) (body : OpenPool → Locked φ → Ending α × Locked φ) :
    s.locked body = (.ended (body o (s.inside o)).1,
      s.leave { o with poisoned := (body o (s.inside o)).1.isPanic } (body o (s.inside o)).2) := by
  unfold locked
  rw [ho]
  exact if_neg (by simp [hp])

/-- There is no pool, or it is poisoned and nothing happens, or the section runs to its end. -/
theorem locked_cases {α : Type} (s : System φ)
    (body : OpenPool → Locked φ → Ending α × Locked φ) :
    (s.current = none ∧ s.locked body = (.absent, s)) ∨
    (∃ o, s.current = some o ∧ o.poisoned = true ∧
      s.locked body = (.ended (.failed .poisoned), s)) ∨
    ∃ o, s.current = some o ∧ o.poisoned = false ∧
      s.locked body = (.ended (body o (s.inside o)).1,
        s.leave { o with poisoned := (body o (s.inside o)).1.isPanic }
          (body o (s.inside o)).2) := by
  cases ho : s.current with
  | none =>
    unfold locked
    rw [ho]
    exact .inl ⟨rfl, rfl⟩
  | some o =>
    cases hp : o.poisoned with
    | true => exact .inr (.inl ⟨o, rfl, hp, locked_poisoned ho hp body⟩)
    | false => exact .inr (.inr ⟨o, rfl, hp, locked_open ho hp body⟩)

theorem takeHeld_eq_some {s s' : System φ} {serial : Nat} {x : Surface}
    (h : s.takeHeld? serial = some (x, s')) :
    s.held.find? (fun y => y.serial == serial) = some x ∧ x.serial = serial ∧
      s' = { s with held := s.held.eraseP fun y => y.serial == serial } := by
  simp only [takeHeld?, Option.map_eq_some_iff] at h
  obtain ⟨y, hy, he⟩ := h
  obtain ⟨rfl, rfl⟩ := Prod.mk.inj he
  exact ⟨hy, by simpa using List.find?_some hy, rfl⟩

theorem leave_calm {s : System φ} {o : OpenPool} (hp : o.poisoned = false) {b : Bool}
    (hb : b = false) (l : Locked φ) : s.leave { o with poisoned := b } l = s.leave o l := by
  have ho : { o with poisoned := b } = o := by
    cases o
    cases hp
    cases hb
    rfl
  rw [ho]

theorem leave_ok {s : System φ} {o : OpenPool} (hp : o.poisoned = false) {α : Type} (a : α)
    (l : Locked φ) :
    s.leave { o with poisoned := (Ending.ok a).isPanic } l = s.leave o l :=
  leave_calm hp rfl l

theorem leave_inside {s : System φ} {o : OpenPool} (ho : s.current = some o) :
    s.leave o (s.inside o) = s := by
  cases s
  cases ho
  rfl

theorem inspect_eq {s : System φ} {o : OpenPool} (ho : s.current = some o) (look : Pool → Reply) :
    s.inspect look = if o.poisoned then .failed .poisoned else look o.pool := by
  unfold inspect
  cases hp : o.poisoned with
  | true =>
    rw [locked_poisoned ho hp]
    rfl
  | false =>
    rw [locked_open ho hp]
    rfl

theorem report_open [Allocator φ] {s : System φ} {o : OpenPool} (ho : s.current = some o)
    (hp : o.poisoned = false) :
    s.step .report =
      (.stats (s.inside o).report.pool.lastReport, s.leave o (s.inside o).report) := by
  let body : OpenPool → Locked φ → Ending Stats × Locked φ :=
    fun _ l => (.ok l.report.pool.lastReport, l.report)
  change ((s.locked body).1.reply Reply.stats, (s.locked body).2) = _
  rw [locked_open ho hp body, leave_ok hp]
  rfl

theorem perform_ne_handed (s : System φ) (body : OpenPool → Locked φ → Ending Unit × Locked φ)
    (x : Surface) : (s.perform body).1 ≠ .handed x := by
  change (s.locked body).1.reply _ ≠ _
  cases (s.locked body).1 with
  | absent => simp [Section.reply]
  | ended ending => cases ending <;> simp [Section.reply]

/-- The process in which the surface has its hook and the id is reserved for it. -/
def registering (s : System φ) (o : OpenPool) (x : Surface) : System φ :=
  { s with
    current := some { o with pool := { o.pool with pending := (o.pool.pending.reserve x.id).2 } }
    calls := .registering x x.id (s.registrations + 1) :: s.calls
    hooks := ⟨s.registrations + 1, o.generation, x.id⟩ :: s.hooks
    registrations := s.registrations + 1 }

theorem submit_cases (s : System φ) (serial : Nat) :
    ((s.current = none ∨ s.takeHeld? serial = none) ∧ s.submit serial = (.refused, s)) ∨
    ∃ o x t, s.current = some o ∧ s.takeHeld? serial = some (x, t) ∧
      ((o.poisoned = true ∧ s.submit serial = (.failed .poisoned, t.release x)) ∨
       (o.poisoned = false ∧ o.pool.pending.contains x.id = true ∧
         s.submit serial = (.done, (t.log (.alreadyPending x.id)).release x)) ∨
       (o.poisoned = false ∧ o.pool.pending.contains x.id = false ∧
         s.submit serial = (.entered, t.registering o x))) := by
  unfold submit
  cases ho : s.current with
  | none => exact .inl ⟨.inl rfl, rfl⟩
  | some o =>
    cases ht : s.takeHeld? serial with
    | none => exact .inl ⟨.inr rfl, rfl⟩
    | some r =>
      obtain ⟨x, t⟩ := r
      refine .inr ⟨o, x, t, rfl, rfl, ?_⟩
      have hto : t.current = some o := by
        obtain ⟨-, -, rfl⟩ := takeHeld_eq_some ht
        exact ho
      let body : OpenPool → Locked φ → Ending Bool × Locked φ := fun _ l =>
        (.ok (l.reserve x.id).1, (l.reserve x.id).2)
      have hopen : o.poisoned = false → t.locked body =
          (.ended (.ok !o.pool.pending.contains x.id),
            t.leave o ((t.inside o).reserve x.id).2) := by
        intro hp
        rw [locked_open hto hp body, leave_ok hp]
        exact congrArg (fun b => (Section.ended (Ending.ok b), _))
          (Pending.reserve_fst o.pool.pending x.id)
      dsimp only
      cases hp : o.poisoned with
      | true =>
        refine .inl ⟨rfl, ?_⟩
        split <;> rename_i heq <;> have hr := (locked_poisoned hto hp body).symm.trans heq
        · exact absurd hr (by simp)
        · exact absurd hr (by simp)
        · obtain ⟨rfl, rfl⟩ := Prod.mk.inj hr
          rfl
      | false =>
        cases hc : o.pool.pending.contains x.id with
        | true =>
          rw [hc] at hopen
          refine .inr (.inl ⟨rfl, rfl, ?_⟩)
          have hsame : t.leave o ((t.inside o).reserve x.id).2 = t := by
            change t.leave o ((t.inside o).withPending (o.pool.pending.reserve x.id).2) = t
            rw [Pending.reserve_of_contains _ _ hc]
            exact leave_inside hto
          split <;> rename_i heq <;> have hr := (hopen hp).symm.trans heq
          · exact absurd hr (by simp)
          · obtain ⟨-, rfl⟩ := Prod.mk.inj hr
            rw [hsame]
          · rename_i hno
            obtain ⟨rfl, -⟩ := Prod.mk.inj hr
            exact absurd rfl hno
        | false =>
          rw [hc] at hopen
          refine .inr (.inr ⟨rfl, rfl, ?_⟩)
          split <;> rename_i heq <;> have hr := (hopen hp).symm.trans heq
          · obtain ⟨-, rfl⟩ := Prod.mk.inj hr
            rfl
          · exact absurd hr (by simp)
          · rename_i hno _
            obtain ⟨rfl, -⟩ := Prod.mk.inj hr
            exact absurd rfl hno

theorem registered_cases {s : System φ} {x : Surface} {id : BufferId} {n : Nat}
    {calls : List Call} (hc : s.calls = .registering x id n :: calls) {o : OpenPool}
    (ho : s.current = some o) :
    (o.poisoned = true ∧
      s.registered = (.failed .poisoned, ({ s with calls } : System φ).abandon id x)) ∨
    (o.poisoned = false ∧
      s.registered =
        (.done, ({ s with calls } : System φ).leave o ((s.inside o).settle id x))) := by
  let body : OpenPool → Locked φ → Ending Unit × Locked φ := fun _ l => (.ok (), l.settle id x)
  let t : System φ := { s with calls }
  have ht : t.current = some o := ho
  unfold registered
  rw [hc]
  dsimp only
  cases hp : o.poisoned with
  | true =>
    have hl : t.perform body = (.failed .poisoned, t) := by
      unfold perform
      rw [locked_poisoned ht hp]
      rfl
    exact .inl ⟨rfl, by rw [hl]⟩
  | false =>
    have hl : t.perform body = (.done, t.leave o ((s.inside o).settle id x)) := by
      unfold perform
      rw [locked_open ht hp, leave_ok hp]
      rfl
    exact .inr ⟨rfl, by rw [hl]⟩

theorem acquire_cases [Allocator φ] {s : System φ} {o : OpenPool} (ho : s.current = some o)
    (size : Size) :
    (o.poisoned = true ∧
      s.acquire size = (.failed .poisoned, s.log (.acquireFailed .poisoned size))) ∨
    (o.poisoned = false ∧
      ((∃ x cached, ((s.inside o).obtain size).1 = .ok (x, cached) ∧
          s.acquire size = (.entered,
            { s.leave o ((s.inside o).obtain size).2 with
              calls := .flushing (x.withFeatures x.rested) cached :: s.calls })) ∨
        (∃ error, ((s.inside o).obtain size).1 = .failed error ∧
          s.acquire size = (.failed error,
            (s.leave o ((s.inside o).obtain size).2).log (.acquireFailed error size))) ∨
        (((s.inside o).obtain size).1 = .panicked ∧
          s.acquire size = (.panicked,
            s.leave { o with poisoned := true } ((s.inside o).obtain size).2)))) := by
  let body : OpenPool → Locked φ → Ending (Surface × Bool) × Locked φ := fun _ l => l.obtain size
  unfold acquire
  cases hp : o.poisoned with
  | true =>
    have hl : s.locked body = _ := locked_poisoned ho hp body
    exact .inl ⟨rfl, by rw [hl]⟩
  | false =>
    have hl : s.locked body = _ := locked_open ho hp body
    refine .inr ⟨rfl, ?_⟩
    rw [hl]
    dsimp only [body]
    cases hr : ((s.inside o).obtain size).1 with
    | ok r =>
      refine .inl ⟨r.1, r.2, rfl, ?_⟩
      rw [leave_ok hp]
      rfl
    | failed error =>
      refine .inr (.inl ⟨error, rfl, ?_⟩)
      rw [leave_calm hp (b := (Ending.failed error).isPanic) rfl]
    | panicked => exact .inr (.inr ⟨rfl, rfl⟩)

theorem flushed_cases {s : System φ} {x : Surface} {cached : Bool} {calls : List Call}
    (hc : s.calls = .flushing x cached :: calls) {o : OpenPool} (ho : s.current = some o)
    (ok : Bool) :
    (ok = false ∧ s.flushed ok = (.failed (.flushFailed x.id),
      (({ s with calls } : System φ).log (.flushFailed x.id)).release x)) ∨
    (ok = true ∧ cached = false ∧
      s.flushed ok = (.handed x, ({ s with calls } : System φ).hold x)) ∨
    (ok = true ∧ cached = true ∧ o.poisoned = true ∧
      s.flushed ok = (.failed .poisoned, ({ s with calls } : System φ).release x)) ∨
    (ok = true ∧ cached = true ∧ o.poisoned = false ∧
      s.flushed ok = (.handed x,
        (({ s with calls } : System φ).leave o (s.inside o).countReused).hold x)) := by
  let body : OpenPool → Locked φ → Ending Unit × Locked φ := fun _ l => (.ok (), l.countReused)
  let t : System φ := { s with calls }
  have ht : t.current = some o := ho
  unfold flushed
  rw [hc]
  dsimp only
  cases ok with
  | false => exact .inl ⟨rfl, rfl⟩
  | true =>
    cases cached with
    | false => exact .inr (.inl ⟨rfl, rfl, rfl⟩)
    | true =>
      cases hp : o.poisoned with
      | true =>
        have hl : t.perform body = (.failed .poisoned, t) := by
          unfold perform
          rw [locked_poisoned ht hp]
          rfl
        exact .inr (.inr (.inl ⟨rfl, rfl, rfl, by rw [hl]; rfl⟩))
      | false =>
        have hl : t.perform body = (.done, t.leave o (s.inside o).countReused) := by
          unfold perform
          rw [locked_open ht hp, leave_ok hp]
          rfl
        exact .inr (.inr (.inr ⟨rfl, rfl, rfl, by rw [hl]; rfl⟩))

/-- Only a call that waits for a flush takes it. -/
theorem flushed_awaited (s : System φ) (ok : Bool) :
    ((∀ x cached calls, s.calls ≠ .flushing x cached :: calls) ∧ s.flushed ok = (.refused, s)) ∨
    ∃ x cached calls, s.calls = .flushing x cached :: calls := by
  unfold flushed
  split
  · rename_i x cached calls hc
    exact .inr ⟨x, cached, calls, hc⟩
  · rename_i hc
    exact .inl ⟨hc, rfl⟩

theorem registered_awaited (s : System φ) :
    ((∀ x id n calls, s.calls ≠ .registering x id n :: calls) ∧ s.registered = (.refused, s)) ∨
    ∃ x id n calls, s.calls = .registering x id n :: calls := by
  unfold registered
  split
  · rename_i x id n calls hc
    exact .inr ⟨x, id, n, calls, hc⟩
  · rename_i hc
    exact .inl ⟨hc, rfl⟩

theorem registered_open {s : System φ} {o : OpenPool} (ho : s.current = some o)
    (hp : o.poisoned = false) {x : Surface} {id : BufferId} {n : Nat} {calls : List Call}
    (hc : s.calls = .registering x id n :: calls) :
    s.registered = (.done, ({ s with calls } : System φ).leave o ((s.inside o).settle id x)) := by
  rcases registered_cases hc ho with ⟨hp', -⟩ | ⟨-, h⟩
  · exact absurd (hp.symm.trans hp') (by simp)
  · exact h

theorem deliver_cases (s : System φ) (h : Hook) :
    ((∀ o, s.current = some o → o.generation ≠ h.generation) ∧ s.deliver h = s) ∨
    ∃ o, s.current = some o ∧ o.generation = h.generation ∧
      ((o.poisoned = true ∧ s.deliver h = s.log (.completionUndeliverable .poisoned h.id)) ∨
       (o.poisoned = false ∧ s.deliver h = s.leave o ((s.inside o).complete h.id))) := by
  unfold deliver
  cases ho : s.current with
  | none => exact .inl ⟨by simp, rfl⟩
  | some o =>
    by_cases hg : o.generation = h.generation
    · refine .inr ⟨o, rfl, hg, ?_⟩
      rw [if_pos (by simpa using hg)]
      unfold signal
      cases hp : o.poisoned with
      | true => exact .inl ⟨rfl, by rw [locked_poisoned ho hp]⟩
      | false => exact .inr ⟨rfl, by rw [locked_open ho hp, leave_ok hp]⟩
    · refine .inl ⟨?_, if_neg (by simpa using hg)⟩
      intro o' ho'
      obtain rfl := Option.some.inj ho'
      exact hg

theorem deliver_open {s : System φ} {o : OpenPool} (ho : s.current = some o)
    (hp : o.poisoned = false) {h : Hook} (hg : h.generation = o.generation) :
    s.deliver h = s.leave o ((s.inside o).complete h.id) := by
  rcases s.deliver_cases h with ⟨hne, -⟩ | ⟨o', ho', -, ⟨hp', -⟩ | ⟨-, hd⟩⟩
  · exact absurd hg.symm (hne o ho)
  · obtain rfl := Option.some.inj (ho.symm.trans ho')
    exact absurd (hp.symm.trans hp') (by simp)
  · obtain rfl := Option.some.inj (ho.symm.trans ho')
    exact hd

theorem drop_cases (s : System φ) (serial : Nat) :
    s.drop serial = (.refused, s) ∨ ∃ x, s.drop serial =
      (.done, release { s with held := s.held.eraseP fun y => y.serial == serial } x) := by
  unfold drop
  cases ht : s.takeHeld? serial with
  | none => exact .inl rfl
  | some r =>
    obtain ⟨x, t⟩ := r
    obtain ⟨-, -, rfl⟩ := takeHeld_eq_some ht
    exact .inr ⟨x, rfl⟩

theorem unwind_cases (s : System φ) :
    s.unwind = (.refused, s) ∨ ∃ c calls, s.calls = c :: calls ∧
      s.unwind = (.panicked, ({ s with calls } : System φ).release c.surface) := by
  unfold unwind
  cases hc : s.calls with
  | nil => exact .inl rfl
  | cons c calls => exact .inr ⟨c, calls, rfl, rfl⟩

theorem fire_cases (s : System φ) (hook : Nat) :
    s.fire hook = (.refused, s) ∨
    ∃ h ∈ s.hooks, h.number = hook ∧
      s.fire hook = (.done, ({ s with hooks := s.hooks.erase h } : System φ).deliver h) := by
  unfold fire
  cases hf : s.hooks.find? fun h => h.number == hook with
  | none => exact .inl rfl
  | some h =>
    exact .inr ⟨h, List.mem_of_find?_eq_some hf, by simpa using List.find?_some hf, rfl⟩

/-- Closing a pool does nothing to what the caller and calls in progress own. -/
theorem close_eq (s : System φ) :
    ∃ journal, s.close =
      { s with
        current := none
        journal
        device := s.device.releaseAll s.pooled } := by
  unfold close pooled
  cases hs : s.current with
  | none => exact ⟨s.journal, by cases s; cases hs; rfl⟩
  | some o =>
    dsimp only
    split
    · exact ⟨s.journal, rfl⟩
    · exact ⟨_, rfl⟩

theorem startLogging_eq (s : System φ) (l : Logging) :
    ∃ journal, s.startLogging l = { s with journal } := by
  unfold startLogging
  split
  · dsimp only
    split
    · exact ⟨_, rfl⟩
    · exact ⟨_, rfl⟩
  · exact ⟨s.journal, rfl⟩

/-- The process in which a fresh pool has taken the place of the one in use. -/
def reopened (s : System φ) (config : Config) (journal : Log.Journal) : System φ :=
  { s with
    current := some
      { generation := s.opened + 1
        config
        pool := { capacity := config.maxSurfaces } }
    journal
    opened := s.opened + 1
    device := s.device.releaseAll s.pooled }

theorem replacePool_eq (s : System φ) (config : Config) :
    ∃ journal, s.replacePool config = s.reopened config journal := by
  obtain ⟨journal, h⟩ := s.close_eq
  refine ⟨journal, ?_⟩
  unfold replacePool
  rw [h]
  rfl

/-- What comes of opening a pool: nothing, or a fresh one in the place of the one in use. -/
theorem openPool_cases (s : System φ) (config : Option Config) :
    ((s.openPool config).1 ≠ .done ∧ (s.openPool config).2 = s) ∨
    ∃ journal, s.calls = [] ∧ (config.getD {}).fault? = none ∧
      s.openPool config = (.done, s.reopened (config.getD {}) journal) := by
  unfold openPool
  split
  · rename_i hc
    have hcalls := List.isEmpty_iff.mp hc
    cases config with
    | none =>
      obtain ⟨journal, h⟩ := s.replacePool_eq {}
      exact .inr ⟨journal, hcalls, rfl, by rw [h]; rfl⟩
    | some config =>
      dsimp only
      split
      · exact .inl ⟨by simp, rfl⟩
      · rename_i hfault
        obtain ⟨journal, h⟩ := s.startLogging_eq config.logging
        obtain ⟨journal', h'⟩ := ({ s with journal } : System φ).replacePool_eq config
        refine .inr ⟨journal', hcalls, hfault, ?_⟩
        rw [h, h']
        rfl
  · exact .inl ⟨by simp, rfl⟩

section Fetch

variable [Allocator φ] {s : System φ} {o : OpenPool} {size : Size}

theorem fetch_entered {t : System φ} (h : s.acquire size = (.entered, t))
    (ready : Option Bool) : s.fetch size ready = t.step (ready.elim .unwind .flushed) := by
  have hstep : s.step (.acquire size) = (.entered, t) := h
  unfold fetch
  rw [hstep]

theorem fetch_ended {r : Reply} {t : System φ} (h : s.acquire size = (r, t))
    (hr : r ≠ .entered) (ready : Option Bool) : s.fetch size ready = (r, t) := by
  have hstep : s.step (.acquire size) = (r, t) := h
  unfold fetch
  rw [hstep]
  cases r with
  | entered => exact absurd rfl hr
  | _ => rfl

section Obtained

variable (ho : s.current = some o) (hp : o.poisoned = false) {l : Locked φ} {x : Surface}
  {cached : Bool} (hx : (s.inside o).obtain size = (.ok (x, cached), l))

include ho hp hx

theorem fetch_flushing (ready : Option Bool) :
    s.fetch size ready = step
      { s.leave o l with calls := .flushing (x.withFeatures x.rested) cached :: s.calls }
      (ready.elim .unwind .flushed) := by
  rcases acquire_cases ho size with
    ⟨hp', -⟩ | ⟨-, ⟨y, c, he, h⟩ | ⟨error, he, -⟩ | ⟨he, -⟩⟩
  · exact absurd (hp.symm.trans hp') (by simp)
  · rw [hx] at he h
    obtain ⟨rfl, rfl⟩ := Prod.mk.inj (Ending.ok.inj he)
    exact fetch_entered h ready
  · rw [hx] at he
    exact absurd he (by simp)
  · rw [hx] at he
    exact absurd he (by simp)

theorem fetch_ready : ∃ journal, s.fetch size (some true) = (.handed (x.withFeatures x.rested),
    { s with
      current := some { o with pool := { l.pool with
        reused := l.pool.reused + if cached then 1 else 0 } }
      device := l.device
      held := s.held ++ [x.withFeatures x.rested]
      journal }) := by
  rw [fetch_flushing ho hp hx]
  let t : System φ :=
    { s.leave o l with calls := .flushing (x.withFeatures x.rested) cached :: s.calls }
  change ∃ journal, t.flushed true = _
  rcases flushed_cases (s := t) rfl rfl true with
    ⟨hno, -⟩ | ⟨-, rfl, h⟩ | ⟨-, -, hp', -⟩ | ⟨-, rfl, -, h⟩
  · exact absurd hno (by simp)
  · exact ⟨_, h⟩
  · exact absurd (hp.symm.trans hp') (by simp)
  · exact ⟨_, h⟩

theorem fetch_unready : ∃ journal, s.fetch size (some false) = (.failed (.flushFailed x.id),
    { s with
      current := some { o with pool := l.pool }
      device := l.device.release x
      journal }) := by
  rw [fetch_flushing ho hp hx]
  let t : System φ :=
    { s.leave o l with calls := .flushing (x.withFeatures x.rested) cached :: s.calls }
  change ∃ journal, t.flushed false = _
  rcases flushed_cases (s := t) rfl rfl false with
    ⟨-, h⟩ | ⟨hno, -⟩ | ⟨hno, -⟩ | ⟨hno, -⟩
  · exact ⟨_, h⟩
  · exact absurd hno (by simp)
  · exact absurd hno (by simp)
  · exact absurd hno (by simp)

end Obtained

theorem fetch_failed (ho : s.current = some o) (hp : o.poisoned = false) {l : Locked φ}
    {error : PoolError} (he : (s.inside o).obtain size = (.failed error, l)) (ready : Option Bool) :
    ∃ journal, s.fetch size ready = (.failed error,
      { s with current := some { o with pool := l.pool }, device := l.device, journal }) := by
  rcases acquire_cases ho size with
    ⟨hp', -⟩ | ⟨-, ⟨y, c, hok, -⟩ | ⟨error', hf, h⟩ | ⟨hpanic, -⟩⟩
  · exact absurd (hp.symm.trans hp') (by simp)
  · rw [he] at hok
    exact absurd hok (by simp)
  · rw [he] at hf h
    obtain rfl := Ending.failed.inj hf
    exact ⟨_, fetch_ended h (by simp) ready⟩
  · rw [he] at hpanic
    exact absurd hpanic (by simp)

end Fetch

end System

end SurfaceReuse
