import Mathlib.Data.List.Perm.Basic
import SurfaceReuse.Proofs.Idle
import SurfaceReuse.Proofs.Ownership

set_option autoImplicit false

/-!
Where the surfaces of a process are while a pool is in use: with the caller, among the idle ones,
or away, in the hands of a call or waiting for their writes. A move passes them on in one of a few
ways, and these are listed here once.
-/

namespace SurfaceReuse

/-- The whereabouts of the surfaces, and the limits that the pool keeps to. -/
structure Places where
  config : Config
  capacity : Nat
  held : List Surface
  away : List Surface
  idle : List Surface

variable {φ : Type}

def System.places (s : System φ) (o : OpenPool) : Places where
  config := o.config
  capacity := o.pool.capacity
  held := s.held
  away := s.calls.map Call.surface ++ o.pool.pending.values
  idle := o.pool.available

/-- The wait of the surface ends with this move: its hook is called while it is in its slot, or it
    comes back from its registration and finds the slot gone. -/
def System.Recycles (s : System φ) (m : Move φ) (x : Surface) : Prop :=
  ∃ o, s.current = some o ∧ o.poisoned = false ∧
    ((∃ h ∈ s.hooks, m = .fire h.number ∧ h.generation = o.generation ∧
        o.pool.pending.get? h.id = some (.parked x)) ∨
      ∃ id n calls, m = .registered ∧ s.calls = .registering x id n :: calls ∧
        o.pool.pending.get? id = none)

namespace Places

/-- What a move can do to the whereabouts of surfaces. -/
inductive Step [Allocator φ] (s : System φ) (m : Move φ) (p : Places) : Places → Prop where
  /-- Nothing happens, or surfaces go down while they are away. -/
  | gone (xs : List Surface) {away : List Surface} (h : (xs ++ away).Perm p.away) :
      Step s m p { p with away }
  | found {size : Size} {x : Surface} (hm : m = .acquire size)
      (hx : p.idle.find? (Surface.fits size) = some x) :
      Step s m p
        { p with
          away := x.withFeatures x.rested :: p.away
          idle := p.idle.eraseP (Surface.fits size) }
  | made {size : Size} {x : Surface} (hm : m = .acquire size)
      (hnone : p.idle.find? (Surface.fits size) = none) (hx : s.device.Fresh size x) :
      Step s m p { p with away := x.withFeatures x.rested :: p.away }
  | handed {x : Surface} {away : List Surface} (h : p.away = x :: away) :
      Step s m p { p with held := p.held ++ [x], away }
  | submitted {x : Surface} (hm : m = .submit x.serial)
      (hx : p.held.find? (fun y => y.serial == x.serial) = some x) :
      Step s m p
        { p with
          held := p.held.eraseP fun y => y.serial == x.serial
          away := x :: p.away }
  | parted (serial : Nat) :
      Step s m p { p with held := p.held.eraseP fun y => y.serial == serial }
  | recycled {x : Surface} {away : List Surface} (hr : s.Recycles m x) (hv : x.valid = true)
      (hroom : p.idle.length < p.capacity) (h : (x :: away).Perm p.away) :
      Step s m p { p with away, idle := p.idle ++ [x] }
  | collected {stay made : List Surface} (hm : m = .collect)
      (hstay : stay = p.idle.filterMap (Surface.tick? p.config.maxAge))
      (hs : s.device.Supply ((stay.find? Surface.shrinkable).toList.map fun x => x.size) made) :
      Step s m p { p with idle := stay.eraseP Surface.shrinkable ++ made }
  | shrunk {made : List Surface} (hm : m = .shrink)
      (hs : s.device.Supply ((p.idle.filter fun x => x.oversized).map fun x => x.size) made) :
      Step s m p { p with idle := (p.idle.filter fun x => !x.oversized) ++ made }
  | touched {serial : Nat} {change : Features → Features} (hm : m = .touch serial change) :
      Step s m p
        { p with
          held := p.held.map (Surface.touch serial change)
          away := p.away.map (Surface.touch serial change)
          idle := p.idle.map (Surface.touch serial change) }
  | built {f : Features} (hm : m = .build f) :
      Step s m p { p with held := p.held ++ [⟨f, s.device.built + 1⟩] }

theorem Step.same [Allocator φ] {s : System φ} {m : Move φ} {p : Places} : Step s m p p :=
  .gone [] (List.Perm.refl _)

theorem Step.limits [Allocator φ] {s : System φ} {m : Move φ} {p p' : Places}
    (h : Step s m p p') : p'.config = p.config ∧ p'.capacity = p.capacity := by
  cases h <;> exact ⟨rfl, rfl⟩

end Places

namespace System

variable {s : System φ} {o : OpenPool}

theorem places_leave (s : System φ) (o : OpenPool) (l : Locked φ) :
    (s.leave o l).places { o with pool := l.pool } =
      { config := o.config
        capacity := l.pool.capacity
        held := s.held
        away := s.calls.map Call.surface ++ l.pool.pending.values
        idle := l.pool.available } := rfl

theorem away_of_call {c : Call} {calls : List Call} (hc : s.calls = c :: calls) (o : OpenPool) :
    (s.places o).away = c.surface :: (calls.map Call.surface ++ o.pool.pending.values) := by
  change s.calls.map Call.surface ++ _ = _
  rw [hc]
  rfl

theorem away_erase (calls : List Surface) {id : BufferId} {slot : Slot Surface}
    (hs : o.pool.pending.get? id = some slot) :
    (slot.value?.toList ++ (calls ++ (o.pool.pending.erase id).values)).Perm
      (calls ++ o.pool.pending.values) :=
  (List.perm_append_comm_assoc _ _ _).trans
    ((Pending.values_erase _ _ _ hs).append_left calls)

theorem away_park (calls : List Surface) (x : Surface) {id : BufferId} {slot : Slot Surface}
    (hs : o.pool.pending.get? id = some slot) :
    (slot.value?.toList ++ (calls ++ (o.pool.pending.park id x).2.values)).Perm
      (x :: (calls ++ o.pool.pending.values)) :=
  (List.perm_append_comm_assoc _ _ _).trans
    (((Pending.values_park _ _ x _ hs).append_left calls).trans List.perm_middle)

theorem abandon_eq (ho : s.current = some o) (id : BufferId) (x : Surface) :
    s.abandon id x =
      ((s.leave o ((s.inside o).forget id)).log (.poisonedDuringSubmit id)).release x := by
  unfold abandon
  rw [ho]

theorem places_locked {α : Type} (ho : s.current = some o)
    (body : OpenPool → Locked φ → Ending α × Locked φ)
    (hpending : ∀ (o : OpenPool) (l : Locked φ), (body o l).2.pool.pending = l.pool.pending)
    (hcapacity : ∀ (o : OpenPool) (l : Locked φ), (body o l).2.pool.capacity = l.pool.capacity) :
    ∃ o', (s.locked body).2.current = some o' ∧
      ((s.locked body).2.places o' = s.places o ∨
        (s.locked body).2.places o' =
          { s.places o with idle := (body o (s.inside o)).2.pool.available }) := by
  rcases s.locked_cases body with ⟨hn, -⟩ | ⟨o', ho', -, hl⟩ | ⟨o', ho', -, hl⟩
  · exact absurd (ho.symm.trans hn) nofun
  · rw [hl]
    exact ⟨o, ho, .inl rfl⟩
  · obtain rfl : o = o' := Option.some.inj (ho.symm.trans ho')
    rw [hl]
    refine ⟨_, rfl, .inr ?_⟩
    rw [places_leave, hpending, hcapacity]
    rfl

variable [Allocator φ]

theorem places_acquire (ho : s.current = some o) (size : Size) :
    ∃ o', (s.acquire size).2.current = some o' ∧
      Places.Step s (.acquire size) (s.places o) ((s.acquire size).2.places o') := by
  unfold acquire
  rcases s.locked_cases (fun _ l => l.obtain size) with ⟨hn, -⟩ | ⟨o', ho', -, hl⟩ |
    ⟨o', ho', -, hl⟩
  · exact absurd (ho.symm.trans hn) nofun
  · rw [hl]
    exact ⟨o, ho, .same⟩
  · obtain rfl : o = o' := Option.some.inj (ho.symm.trans ho')
    rw [hl]
    have hpending : ((s.inside o).obtain size).2.pool.pending = o.pool.pending :=
      (s.inside o).obtain_pending size
    have hcapacity : ((s.inside o).obtain size).2.pool.capacity = o.pool.capacity :=
      Pool.capacity_fixture.obtain (s.inside o) size
    rcases (s.inside o).obtain_cases size with ⟨x, hx, hok, hidle⟩ | ⟨hnone, hidle, hfresh⟩
    · rw [hok]
      refine ⟨_, rfl, ?_⟩
      change Places.Step s _ _ ⟨o.config, _, s.held, _ :: (s.calls.map Call.surface ++ _), _⟩
      rw [hpending, hcapacity, hidle]
      exact .found rfl hx
    · cases hr : ((s.inside o).obtain size).1 with
      | ok r =>
        refine ⟨_, rfl, ?_⟩
        change Places.Step s _ _ ⟨o.config, _, s.held, _ :: (s.calls.map Call.surface ++ _), _⟩
        rw [hpending, hcapacity, hidle]
        exact .made rfl hnone (hfresh r hr).2
      | failed error =>
        refine ⟨_, rfl, ?_⟩
        change Places.Step s _ _ ⟨o.config, _, s.held, s.calls.map Call.surface ++ _, _⟩
        rw [hpending, hcapacity, hidle]
        exact .same
      | panicked =>
        refine ⟨_, rfl, ?_⟩
        change Places.Step s _ _ ⟨o.config, _, s.held, s.calls.map Call.surface ++ _, _⟩
        rw [hpending, hcapacity, hidle]
        exact .same

theorem places_flushed (ho : s.current = some o) (ok : Bool) :
    ∃ o', (s.flushed ok).2.current = some o' ∧
      Places.Step s (.flushed ok) (s.places o) ((s.flushed ok).2.places o') := by
  rcases s.flushed_awaited ok with ⟨-, h⟩ | ⟨x, cached, calls, hc⟩
  · rw [h]
    exact ⟨o, ho, .same⟩
  have haway := s.away_of_call hc o
  have hlost : Places.Step s (.flushed ok) (s.places o)
      { s.places o with away := calls.map Call.surface ++ o.pool.pending.values } :=
    .gone [x] (List.Perm.of_eq haway.symm)
  rcases flushed_cases hc ho ok with ⟨-, h⟩ | ⟨-, -, h⟩ | ⟨-, -, -, h⟩ | ⟨-, -, -, h⟩
  · rw [h]
    exact ⟨o, ho, hlost⟩
  · rw [h]
    exact ⟨o, ho, .handed haway⟩
  · rw [h]
    exact ⟨o, ho, hlost⟩
  · rw [h]
    exact ⟨_, rfl, .handed haway⟩

theorem places_submit (ho : s.current = some o) (serial : Nat) :
    ∃ o', (s.submit serial).2.current = some o' ∧
      Places.Step s (.submit serial) (s.places o) ((s.submit serial).2.places o') := by
  rcases s.submit_cases serial with ⟨-, h⟩ | ⟨o', x, t, ho', ht, h⟩
  · rw [h]
    exact ⟨o, ho, .same⟩
  · obtain rfl : o = o' := Option.some.inj (ho.symm.trans ho')
    obtain ⟨hx, rfl, rfl⟩ := takeHeld_eq_some ht
    rcases h with ⟨-, h⟩ | ⟨-, -, h⟩ | ⟨-, -, h⟩
    · rw [h]
      exact ⟨o, ho, .parted x.serial⟩
    · rw [h]
      exact ⟨o, ho, .parted x.serial⟩
    · rw [h]
      refine ⟨_, rfl, ?_⟩
      change Places.Step s _ _ ⟨o.config, o.pool.capacity, _,
        x :: (s.calls.map Call.surface ++ (o.pool.pending.reserve x.id).2.values), o.pool.available⟩
      rw [Pending.values_reserve]
      exact .submitted rfl hx

theorem places_drop (ho : s.current = some o) (serial : Nat) :
    ∃ o', (s.drop serial).2.current = some o' ∧
      Places.Step s (.drop serial) (s.places o) ((s.drop serial).2.places o') := by
  rcases s.drop_cases serial with h | ⟨x, h⟩
  · rw [h]
    exact ⟨o, ho, .same⟩
  · rw [h]
    exact ⟨o, ho, .parted serial⟩

/-- A surface that the pool takes back is the youngest idle one, or it goes down. -/
theorem places_recycle {m : Move φ} {p : Places} {l : Locked φ} {x : Surface}
    {away : List Surface} (hr : s.Recycles m x) (hcapacity : l.pool.capacity = p.capacity)
    (hidle : l.pool.available = p.idle) (h : (x :: away).Perm p.away) :
    Places.Step s m p { p with away, idle := (l.recycle x).pool.available } := by
  rcases l.recycle_cases x with ⟨hv, hfull, he⟩ | ⟨-, he, -⟩
  · have hroom := l.pool.isFull_eq_false_iff.mp hfull
    rw [he, hidle]
    rw [hidle, hcapacity] at hroom
    exact .recycled hr hv hroom h
  · rw [he, hidle]
    exact .gone [x] h

theorem places_registered (ho : s.current = some o) :
    ∃ o', s.registered.2.current = some o' ∧
      Places.Step s .registered (s.places o) (s.registered.2.places o') := by
  rcases s.registered_awaited with ⟨-, h⟩ | ⟨x, id, n, calls, hc⟩
  · rw [h]
    exact ⟨o, ho, .same⟩
  have haway := s.away_of_call hc o
  rcases registered_cases hc ho with ⟨-, h⟩ | ⟨hp, h⟩
  · rw [h, abandon_eq (s := { s with calls }) ho]
    refine ⟨_, rfl, ?_⟩
    change Places.Step s _ _ ⟨o.config, ((s.inside o).forget id).pool.capacity, s.held,
      calls.map Call.surface ++ ((s.inside o).forget id).pool.pending.values,
      ((s.inside o).forget id).pool.available⟩
    rw [Locked.forget_eq]
    split
    · exact .gone [x] (List.Perm.of_eq haway.symm)
    · rename_i hs
      exact .gone [x] (haway ▸ (away_erase _ hs).cons x)
    · rename_i y hs
      exact .gone [x, y] (haway ▸ (away_erase _ hs).cons x)
  · rw [h]
    refine ⟨_, rfl, ?_⟩
    change Places.Step s _ _ ⟨o.config, ((s.inside o).settle id x).pool.capacity, s.held,
      calls.map Call.surface ++ ((s.inside o).settle id x).pool.pending.values,
      ((s.inside o).settle id x).pool.available⟩
    rw [Locked.settle_eq]
    split
    · rename_i hs
      rw [Locked.recycle_pending, Pool.capacity_fixture.recycle]
      exact places_recycle (p := s.places o) ⟨o, ho, hp, .inr ⟨id, n, calls, rfl, hc, hs⟩⟩ rfl rfl
        (List.Perm.of_eq haway.symm)
    · rename_i hs
      exact .gone [] (haway ▸ away_park _ x hs)
    · rename_i y hs
      exact .gone [y] (haway ▸ away_park _ x hs)

theorem places_unwind (ho : s.current = some o) :
    ∃ o', s.unwind.2.current = some o' ∧
      Places.Step s .unwind (s.places o) (s.unwind.2.places o') := by
  unfold unwind
  split
  · rename_i call calls hc
    exact ⟨o, ho, .gone [call.surface] (List.Perm.of_eq (s.away_of_call hc o).symm)⟩
  · exact ⟨o, ho, .same⟩

theorem places_fire (ho : s.current = some o) (hook : Nat) :
    ∃ o', (s.fire hook).2.current = some o' ∧
      Places.Step s (.fire hook) (s.places o) ((s.fire hook).2.places o') := by
  rcases s.fire_cases hook with h | ⟨h, hm, rfl, hf⟩
  · rw [h]
    exact ⟨o, ho, .same⟩
  rw [hf]
  rcases ({ s with hooks := s.hooks.erase h } : System φ).deliver_cases h with
    ⟨-, hd⟩ | ⟨o', ho', hg, ⟨-, hd⟩ | ⟨hp, hd⟩⟩
  · rw [hd]
    exact ⟨o, ho, .same⟩
  · rw [hd]
    exact ⟨o, ho, .same⟩
  · obtain rfl : o = o' := Option.some.inj (ho.symm.trans ho')
    rw [hd]
    refine ⟨_, rfl, ?_⟩
    change Places.Step s _ _ ⟨o.config, ((s.inside o).complete h.id).pool.capacity, s.held,
      s.calls.map Call.surface ++ ((s.inside o).complete h.id).pool.pending.values,
      ((s.inside o).complete h.id).pool.available⟩
    rw [Locked.complete_eq]
    split
    · exact .same
    · rename_i hs
      exact .gone [] (away_erase _ hs)
    · rename_i x hs
      rw [Locked.recycle_pending, Pool.capacity_fixture.recycle]
      exact places_recycle (p := s.places o) ⟨o, ho, hp, .inl ⟨h, hm, rfl, hg.symm, hs⟩⟩ rfl rfl
        (away_erase _ hs)

theorem places_touch (ho : s.current = some o) (serial : Nat) (change : Features → Features) :
    ∃ o', (s.touch serial change).current = some o' ∧
      Places.Step s (.touch serial change) (s.places o) ((s.touch serial change).places o') := by
  have hcalls : ∀ c : Call, (c.mapSurface (Surface.touch serial change)).surface =
      c.surface.touch serial change := by
    intro c
    cases c <;> rfl
  have haway : ((s.calls.map (Call.mapSurface (Surface.touch serial change))).map Call.surface ++
      (o.pool.pending.map (Surface.touch serial change)).values) =
      (s.places o).away.map (Surface.touch serial change) := by
    change _ = (s.calls.map Call.surface ++ o.pool.pending.values).map _
    rw [Pending.values_map, List.map_append, List.map_map, List.map_map]
    congr 2
    funext c
    exact hcalls c
  refine ⟨{ o with pool := o.pool.mapSurfaces (Surface.touch serial change) }, ?_, ?_⟩
  · unfold touch
    rw [ho]
    rfl
  · change Places.Step s _ _ ⟨o.config, o.pool.capacity, s.held.map _,
      (s.calls.map (Call.mapSurface _)).map Call.surface ++ (o.pool.pending.map _).values,
      o.pool.available.map _⟩
    rw [haway]
    exact .touched rfl

theorem places_step (ho : s.current = some o) (m : Move φ) (stays : m.staysOpen = true) :
    ∃ o', (s.step m).2.current = some o' ∧
      Places.Step s m (s.places o) ((s.step m).2.places o') := by
  cases m with
  | openPool config => exact absurd stays (by simp [Move.staysOpen])
  | closePool => exact absurd stays (by simp [Move.staysOpen])
  | acquire size => exact places_acquire ho size
  | flushed ok => exact places_flushed ho ok
  | submit serial => exact places_submit ho serial
  | registered => exact places_registered ho
  | unwind => exact places_unwind ho
  | fire hook => exact places_fire ho hook
  | collect =>
    obtain ⟨o', ho', hp⟩ := places_locked ho (fun o l => l.collect o.config.maxAge)
      (fun _ l => l.collect_pending _) fun _ l => Pool.capacity_fixture.collect l _
    obtain ⟨made, hidle, hs⟩ := (s.inside o).collect_idle o.config.maxAge
    refine ⟨o', ho', ?_⟩
    change Places.Step s _ _ ((s.locked fun o l => l.collect o.config.maxAge).2.places o')
    rcases hp with hp | hp
    · rw [hp]
      exact .same
    · rw [hp, hidle]
      exact .collected rfl rfl hs
  | shrink =>
    obtain ⟨o', ho', hp⟩ := places_locked ho (fun _ l => l.shrink)
      (fun _ l => l.shrink_pending) fun _ l => Pool.capacity_fixture.shrink l
    obtain ⟨made, hidle, hs⟩ := (s.inside o).shrink_idle
    refine ⟨o', ho', ?_⟩
    change Places.Step s _ _ ((s.locked fun _ l => l.shrink).2.places o')
    rcases hp with hp | hp
    · rw [hp]
      exact .same
    · rw [hp, hidle]
      exact .shrunk rfl hs
  | report =>
    obtain ⟨o', ho', hp⟩ := places_locked ho
      (fun _ l => (Ending.ok l.report.pool.lastReport, l.report)) (fun _ _ => rfl) fun _ _ => rfl
    refine ⟨o', ho', ?_⟩
    change Places.Step s _ _
      ((s.locked fun _ l => (Ending.ok l.report.pool.lastReport, l.report)).2.places o')
    rw [hp.elim id id]
    exact .same
  | lastReport | availableCount | pendingCount | cachedBytes | isPending id => exact ⟨o, ho, .same⟩
  | drop serial => exact places_drop ho serial
  | build f => exact ⟨o, ho, .built rfl⟩
  | touch serial change => exact places_touch ho serial change
  | adjust change => exact ⟨o, ho, .same⟩
  | reportUsage usage => exact ⟨o, ho, .same⟩

end System

end SurfaceReuse
