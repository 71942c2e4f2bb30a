import SurfaceReuse.Proofs.Places

set_option autoImplicit false

/-!
What operations write down. An operation adds events to the journal and leaves the rest of it
alone. A report comes last in an operation, if there is one at all, so the counters are fresh
after every operation that reports, and the report describes the pool as the operation leaves it.
-/

namespace SurfaceReuse

namespace Log

def Event.isReport : Event → Bool
  | .reported _ => true
  | _ => false

namespace Journal

/-- The entry that the event makes. -/
def entry (j : Journal) (e : Event) : Entry :=
  ⟨e, j.library.writes j.installed e.target e.level⟩

theorem foldl_emit (j : Journal) (events : List Event) :
    events.foldl emit j = { j with entries := (events.map j.entry).reverse ++ j.entries } := by
  induction events generalizing j with
  | nil => rfl
  | cons e events ih =>
    rw [List.foldl_cons, ih, List.map_cons, List.reverse_cons, List.append_assoc]
    rfl

/-- Events of one kind, and nothing else, were added to the journal. -/
def Gains (kind : Event → Prop) (j j' : Journal) : Prop :=
  ∃ events : List Event, (∀ e ∈ events, kind e) ∧ j' = events.foldl emit j

variable {kind kind' : Event → Prop} {j j' j'' : Journal}

theorem Gains.refl (j : Journal) : j.Gains kind j :=
  ⟨[], by simp, rfl⟩

theorem Gains.trans (h : j.Gains kind j') (h' : j'.Gains kind j'') : j.Gains kind j'' := by
  obtain ⟨events, he, rfl⟩ := h
  obtain ⟨events', he', rfl⟩ := h'
  refine ⟨events ++ events', fun e hm => ?_, List.foldl_append.symm⟩
  rcases List.mem_append.mp hm with hm | hm
  · exact he e hm
  · exact he' e hm

theorem Gains.emit (j : Journal) {e : Event} (he : kind e) : j.Gains kind (j.emit e) :=
  ⟨[e], by simpa using he, rfl⟩

theorem Gains.mono (hk : ∀ e, kind e → kind' e) (h : j.Gains kind j') : j.Gains kind' j' := by
  obtain ⟨events, he, rfl⟩ := h
  exact ⟨events, fun e hm => hk e (he e hm), rfl⟩

/-- Nothing was reported. -/
def Quiet (j j' : Journal) : Prop :=
  j.Gains (fun e => e.isReport = false) j'

theorem Quiet.refl (j : Journal) : j.Quiet j := Gains.refl j

theorem Quiet.trans (h : j.Quiet j') (h' : j'.Quiet j'') : j.Quiet j'' := Gains.trans h h'

theorem Quiet.emit (j : Journal) {e : Event} (he : e.isReport = false) : j.Quiet (j.emit e) :=
  Gains.emit j he

end Journal

end Log

open Log

/-- The last report describes the pool as it is, and nothing was counted since. -/
structure Pool.Described (p : Pool) : Prop where
  cachedCount : p.lastReport.cachedCount = p.available.length
  cachedBytes : p.lastReport.cachedBytes = p.cachedBytes
  pendingCount : p.lastReport.pendingCount = p.pending.size
  created : p.created = 0
  reused : p.reused = 0

variable {φ : Type}

namespace Locked

theorem report_described (l : Locked φ) : l.report.pool.Described :=
  ⟨rfl, rfl, rfl, rfl, rfl⟩

/-- At most one report was made from the one state to the other, and if so, at the very end. -/
def Closes (l l' : Locked φ) : Prop :=
  l.journal.Quiet l'.journal ∨ ∃ x : Locked φ, l.journal.Quiet x.journal ∧ l' = x.report

theorem closes_recycle (l : Locked φ) (x : Surface) : l.Closes (l.recycle x) := by
  unfold recycle
  split
  · refine .inr ⟨_, ?_, rfl⟩
    split
    · exact .emit _ rfl
    · exact .refl _
  · exact .inl (.emit _ rfl)

theorem closes_complete (l : Locked φ) (id : BufferId) : l.Closes (l.complete id) := by
  rw [complete_eq]
  split
  · exact .inl (.emit _ rfl)
  · exact .inl (.emit _ rfl)
  · exact closes_recycle (l.withPending (l.pool.pending.erase id)) _

theorem closes_settle (l : Locked φ) (id : BufferId) (x : Surface) : l.Closes (l.settle id x) := by
  rw [settle_eq]
  split
  · exact l.closes_recycle x
  · exact .inl (.refl _)
  · exact .inl (.refl _)

theorem quiet_forget (l : Locked φ) (id : BufferId) : l.journal.Quiet (l.forget id).journal := by
  rw [forget_eq]
  split <;> exact .refl _

theorem quiet_evict (l : Locked φ) (maxAge : UInt32) :
    l.journal.Quiet (l.evict maxAge).journal := by
  unfold evict
  dsimp only
  split
  · exact .refl _
  · exact .emit _ rfl

variable [Allocator φ]

theorem quiet_create (l : Locked φ) (size : Size) : l.journal.Quiet (l.create size).2.journal := by
  rw [create_eq]
  split
  · exact .refl _
  · exact .refl _
  · split <;> exact .emit _ rfl

theorem quiet_obtain (l : Locked φ) (size : Size) : l.journal.Quiet (l.obtain size).2.journal := by
  unfold obtain
  split
  · rename_i x l' h
    obtain ⟨-, rfl⟩ := take_eq_some h
    exact .emit _ rfl
  · exact l.quiet_create size

theorem quiet_replenish (l : Locked φ) (size : Size) {note : PoolError → Size → Event}
    (hnote : ∀ error, (note error size).isReport = false) :
    l.journal.Quiet (l.replenish size note).2.journal := by
  have hc := l.quiet_create size
  rw [replenish_eq]
  split
  · exact hc
  · exact hc.trans (.emit _ (hnote _))
  · exact hc

theorem quiet_replenishAll (l : Locked φ) (sizes : List Size) :
    l.journal.Quiet (l.replenishAll sizes).2.journal := by
  induction sizes generalizing l with
  | nil => exact .refl _
  | cons size sizes ih =>
    have hr : l.journal.Quiet (l.replenish size .resizeFailed).2.journal :=
      l.quiet_replenish size fun _ => rfl
    rw [replenishAll_cons]
    split
    · exact hr
    · exact hr.trans (ih _)

theorem quiet_shrinkFirst (l : Locked φ) : l.journal.Quiet l.shrinkFirst.2.journal := by
  unfold shrinkFirst
  split
  · exact .refl _
  · exact (Journal.Quiet.emit _ rfl).trans (quiet_replenish _ _ fun _ => rfl)

theorem closes_collect (l : Locked φ) (maxAge : UInt32) : l.Closes (l.collect maxAge).2 := by
  have h := (l.quiet_evict maxAge).trans (quiet_shrinkFirst _)
  rw [collect_eq]
  dsimp only
  split
  · exact .inl h
  · exact .inr ⟨_, h, rfl⟩

theorem closes_shrink (l : Locked φ) : l.Closes l.shrink.2 := by
  have h : l.journal.Quiet _ := l.withoutLarge.quiet_replenishAll l.largeSizes
  rw [shrink_eq]
  dsimp only
  split
  · exact .inl h
  · exact .inr ⟨_, h, rfl⟩

end Locked

namespace System

variable {s t u : System φ} {o : OpenPool}

/-- At most one report was made from the one state to the other, and if so, it was the last thing
    that happened to the pool in use. -/
def Closes (s t : System φ) : Prop :=
  s.journal.Quiet t.journal ∨
    ∃ o, ∃ x : Locked φ, t.current = some o ∧ s.journal.Quiet x.journal ∧ t.inside o = x.report

theorem Closes.of_locked {l : Locked φ} (h : (s.inside o).Closes l) (o' : OpenPool) :
    s.Closes (s.leave o' l) := by
  rcases h with h | ⟨x, hx, rfl⟩
  · exact .inl h
  · exact .inr ⟨_, x, rfl, hx, rfl⟩

theorem closes_locked {α : Type} (s : System φ) (body : OpenPool → Locked φ → Ending α × Locked φ)
    (hb : ∀ (o : OpenPool) (l : Locked φ), l.Closes (body o l).2) : s.Closes (s.locked body).2 := by
  rcases s.locked_cases body with ⟨-, h⟩ | ⟨o, -, -, h⟩ | ⟨o, -, -, h⟩
  · rw [h]
    exact .inl (.refl _)
  · rw [h]
    exact .inl (.refl _)
  · rw [h]
    exact .of_locked (hb o _) _

theorem closes_fire (s : System φ) (hook : Nat) : s.Closes (s.fire hook).2 := by
  rcases s.fire_cases hook with h | ⟨h, -, -, hf⟩
  · rw [h]
    exact .inl (.refl _)
  rw [hf]
  let t : System φ := { s with hooks := s.hooks.erase h }
  change t.Closes (t.deliver h)
  rcases t.deliver_cases h with ⟨-, hd⟩ | ⟨o, -, -, ⟨-, hd⟩ | ⟨-, hd⟩⟩
  · rw [hd]
    exact .inl (.refl _)
  · rw [hd]
    exact .inl (.emit _ rfl)
  · rw [hd]
    exact .of_locked (Locked.closes_complete _ _) o

theorem closes_registered (ho : s.current = some o) : s.Closes s.registered.2 := by
  rcases s.registered_awaited with ⟨-, h⟩ | ⟨x, id, n, calls, hc⟩
  · rw [h]
    exact .inl (.refl _)
  rcases registered_cases hc ho with ⟨-, h⟩ | ⟨-, h⟩
  · rw [h, abandon_eq (s := { s with calls }) ho]
    exact .inl (((s.inside o).quiet_forget id).trans (.emit _ rfl))
  · rw [h]
    exact .of_locked (s := { s with calls }) ((s.inside o).closes_settle id x) o

theorem quiet_submit (s : System φ) (serial : Nat) :
    s.journal.Quiet (s.submit serial).2.journal := by
  rcases s.submit_cases serial with ⟨-, h⟩ | ⟨o, x, t, -, ht, h⟩
  · rw [h]
    exact .refl _
  obtain ⟨-, -, rfl⟩ := takeHeld_eq_some ht
  rcases h with ⟨-, h⟩ | ⟨-, -, h⟩ | ⟨-, -, h⟩
  · rw [h]
    exact .refl _
  · rw [h]
    exact .emit _ rfl
  · rw [h]
    exact .refl _

theorem quiet_flushed (ho : s.current = some o) (ok : Bool) :
    s.journal.Quiet (s.flushed ok).2.journal := by
  rcases s.flushed_awaited ok with ⟨-, h⟩ | ⟨x, cached, calls, hc⟩
  · rw [h]
    exact .refl _
  rcases flushed_cases hc ho ok with ⟨-, h⟩ | ⟨-, -, h⟩ | ⟨-, -, -, h⟩ | ⟨-, -, -, h⟩
  · rw [h]
    exact .emit _ rfl
  all_goals
    rw [h]
    exact .refl _

theorem quiet_acquire [Allocator φ] (ho : s.current = some o) (size : Size) :
    s.journal.Quiet (s.acquire size).2.journal := by
  have hq := (s.inside o).quiet_obtain size
  rcases acquire_cases ho size with ⟨-, h⟩ | ⟨-, ⟨x, cached, -, h⟩ | ⟨error, -, h⟩ | ⟨-, h⟩⟩
  · rw [h]
    exact .emit _ rfl
  · rw [h]
    exact hq
  · rw [h]
    exact hq.trans (.emit _ rfl)
  · rw [h]
    exact hq

theorem closes_step [Allocator φ] (ho : s.current = some o) (m : Move φ)
    (stays : m.staysOpen = true) : s.Closes (s.step m).2 := by
  cases m with
  | openPool config => exact absurd stays (by simp [Move.staysOpen])
  | closePool => exact absurd stays (by simp [Move.staysOpen])
  | acquire size => exact .inl (quiet_acquire ho size)
  | flushed ok => exact .inl (quiet_flushed ho ok)
  | submit serial => exact .inl (s.quiet_submit serial)
  | registered => exact closes_registered ho
  | fire hook => exact s.closes_fire hook
  | collect => exact s.closes_locked _ fun o l => l.closes_collect o.config.maxAge
  | shrink => exact s.closes_locked _ fun _ l => l.closes_shrink
  | report =>
    exact s.closes_locked (fun _ l => (Ending.ok l.report.pool.lastReport, l.report))
      fun _ l => .inr ⟨l, .refl _, rfl⟩
  | unwind =>
    rcases s.unwind_cases with h | ⟨c, calls, -, h⟩
    all_goals
      change s.Closes s.unwind.2
      rw [h]
      exact .inl (.refl _)
  | drop serial =>
    rcases s.drop_cases serial with h | ⟨x, h⟩
    all_goals
      change s.Closes (s.drop serial).2
      rw [h]
      exact .inl (.refl _)
  | lastReport | availableCount | pendingCount | cachedBytes | isPending id | build features
  | touch serial change | adjust change | reportUsage usage => exact .inl (.refl _)

end System

end SurfaceReuse
