import SurfaceReuse.Proofs.Journal
import SurfaceReuse.Proofs.SingleOwner
import SurfaceReuse.Proofs.Statistics

set_option autoImplicit false

/-!
What one report says about its period. The counters of a report count what happened since the
report before it. Every surface that is created is either handed out, or takes the place of an
oversized one, or is given up on its way to the caller; so the sum of the two counters is the
number of acquisitions as long as right-sizing and failures create nothing.
-/

namespace SurfaceReuse

variable {φ : Type}

def Move.rightSizes : Move φ → Bool
  | .collect | .shrink => true
  | _ => false

/-- Whether the innermost call ends with the move, if it is an acquisition. -/
def Move.endsAcquire : Move φ → Bool
  | .flushed _ | .unwind => true
  | _ => false

def Call.isFresh : Call → Bool
  | .flushing _ cached => !cached
  | .registering _ _ _ => false

def System.acquiring (s : System φ) : Bool :=
  !s.marks.isEmpty

namespace Moment

def handsFresh (m : Moment φ) : Bool :=
  m.handed?.isSome && m.before.calls.head?.any Call.isFresh

def givesUp (m : Moment φ) : Bool :=
  m.move.endsAcquire && m.handed?.isNone && m.before.calls.head?.any Call.isFresh

end Moment

section History

variable (past : List (Moment φ))

/-- What happened since the last report. -/
def sinceReport : List (Moment φ) :=
  past.foldl (fun period m => if m.reports.isEmpty then period ++ [m] else []) []

def period (m : Moment φ) : List (Moment φ) :=
  sinceReport past ++ [m]

def replaced : Nat :=
  (requested (past.filter fun m => m.move.rightSizes)).countP Request.isServed

def givenUp : Nat :=
  past.countP Moment.givesUp

end History

def percent (part whole : Nat) : Float :=
  if whole = 0 then 0 else part.toUInt64.toFloat / whole.toUInt64.toFloat * 100

theorem sinceReport_append (past : List (Moment φ)) (m : Moment φ) :
    sinceReport (past ++ [m]) = if m.reports.isEmpty then period past m else [] := by
  simp [sinceReport, period]

theorem replaced_append (past : List (Moment φ)) (m : Moment φ) :
    replaced (past ++ [m]) =
      replaced past + if m.move.rightSizes then m.requested.countP Request.isServed else 0 := by
  unfold replaced
  rw [List.filter_append]
  cases h : m.move.rightSizes <;> simp [h, requested]

theorem givenUp_append (past : List (Moment φ)) (m : Moment φ) :
    givenUp (past ++ [m]) = givenUp past + if m.givesUp then 1 else 0 := by
  simp [givenUp, List.countP_append, List.countP_singleton]

theorem Moment.requested_eq_nil {m : Moment φ}
    (h : m.after.device.requests = m.before.device.requests) : m.requested = [] := by
  rw [← List.nil_append m.before.device.requests] at h
  exact requested_eq h

namespace Locked

variable [Allocator φ]

theorem create_served (l : Locked φ) (size : Size) :
    ∃ r, (l.create size).2.device.requests = r :: l.device.requests ∧
      (r.isServed = true ↔ ∃ x, (l.create size).1 = .ok x) := by
  obtain ⟨r, hr, hout⟩ := l.device.request_recorded size l.pool.nextId
  refine ⟨r, ?_, ?_⟩
  · rw [create_eq]
    split
    · exact hr
    · exact hr
    · split <;> exact hr
  · unfold Request.isServed
    rw [create_eq, hout]
    cases (l.device.request size l.pool.nextId).1 with
    | refused => simp [Device.Grant.outcome]
    | panicked => simp [Device.Grant.outcome]
    | made x => cases hv : x.valid <;> simp [Device.Grant.outcome, hv]

/-- A surface is created exactly if the surface that is obtained was no idle one. -/
theorem obtain_served (l : Locked φ) (size : Size) :
    ∃ new, (l.obtain size).2.device.requests = new ++ l.device.requests ∧
      ((∃ x, (l.obtain size).1 = .ok (x, false)) ∧ new.countP Request.isServed = 1 ∨
        (∀ x, (l.obtain size).1 ≠ .ok (x, false)) ∧ new.countP Request.isServed = 0) := by
  unfold obtain
  split
  · rename_i x l' h
    obtain ⟨-, rfl⟩ := take_eq_some h
    exact ⟨[], rfl, .inr ⟨by simp, rfl⟩⟩
  · obtain ⟨r, hr, hserved⟩ := l.create_served size
    refine ⟨[r], hr, ?_⟩
    dsimp only
    rw [List.countP_singleton]
    cases hc : (l.create size).1 with
    | ok x =>
      rw [if_pos (hserved.mpr ⟨x, hc⟩)]
      exact .inl ⟨⟨x, rfl⟩, rfl⟩
    | failed error =>
      rw [if_neg (fun h => by simpa [hc] using hserved.mp h)]
      exact .inr ⟨by simp [Ending.map], rfl⟩
    | panicked =>
      rw [if_neg (fun h => by simpa [hc] using hserved.mp h)]
      exact .inr ⟨by simp [Ending.map], rfl⟩

omit [Allocator φ] in
theorem requests_recycle (l : Locked φ) (x : Surface) :
    (l.recycle x).device.requests = l.device.requests := by
  unfold recycle
  split
  · dsimp only
    split <;> rfl
  · rfl

omit [Allocator φ] in
theorem requests_complete (l : Locked φ) (id : BufferId) :
    (l.complete id).device.requests = l.device.requests := by
  rw [complete_eq]
  split
  · rfl
  · rfl
  · exact requests_recycle _ _

omit [Allocator φ] in
theorem requests_settle (l : Locked φ) (id : BufferId) (x : Surface) :
    (l.settle id x).device.requests = l.device.requests := by
  rw [settle_eq]
  split
  · exact requests_recycle l x
  · rfl
  · rfl

omit [Allocator φ] in
theorem requests_forget (l : Locked φ) (id : BufferId) :
    (l.forget id).device.requests = l.device.requests := by
  rw [forget_eq]
  split <;> rfl

end Locked

namespace System

variable {s t : System φ} {o : OpenPool}

/-- How many acquisitions in progress have a surface that was made for them. -/
def fresh (s : System φ) : Nat :=
  s.calls.countP Call.isFresh

theorem fresh_eq_marks (s : System φ) : s.fresh = s.marks.countP fun t => !t.2 := by
  unfold fresh marks
  induction s.calls with
  | nil => rfl
  | cons c calls ih =>
    rw [List.filterMap_cons, List.countP_cons, ih]
    cases c <;> simp [Call.isFresh, Call.mark?, List.countP_cons]

/-- No request was made, and the same acquisitions are in progress. -/
structure Unasked (s t : System φ) : Prop where
  requests : t.device.requests = s.device.requests
  fresh : t.fresh = s.fresh

theorem Unasked.refl (s : System φ) : s.Unasked s :=
  ⟨rfl, rfl⟩

theorem unasked_submit (s : System φ) (serial : Nat) : s.Unasked (s.submit serial).2 := by
  rcases s.submit_cases serial with ⟨-, h⟩ | ⟨o, x, t, -, ht, h⟩
  · rw [h]
    exact .refl s
  obtain ⟨-, -, rfl⟩ := takeHeld_eq_some ht
  rcases h with ⟨-, h⟩ | ⟨-, -, h⟩ | ⟨-, -, h⟩
  all_goals
    rw [h]
    exact ⟨rfl, rfl⟩

theorem unasked_registered (ho : s.current = some o) : s.Unasked s.registered.2 := by
  rcases s.registered_awaited with ⟨-, h⟩ | ⟨x, id, n, calls, hc⟩
  · rw [h]
    exact .refl s
  have hfresh : calls.countP Call.isFresh = s.fresh := by
    simp [fresh, hc, Call.isFresh]
  rcases registered_cases hc ho with ⟨-, h⟩ | ⟨-, h⟩
  · rw [h, abandon_eq (s := { s with calls }) ho]
    exact ⟨(s.inside o).requests_forget id, hfresh⟩
  · rw [h]
    exact ⟨(s.inside o).requests_settle id x, hfresh⟩

theorem unasked_fire (s : System φ) (hook : Nat) : s.Unasked (s.fire hook).2 := by
  rcases s.fire_cases hook with h | ⟨h, -, -, hf⟩
  · rw [h]
    exact .refl s
  rw [hf]
  let t : System φ := { s with hooks := s.hooks.erase h }
  rcases t.deliver_cases h with ⟨-, hd⟩ | ⟨o, -, -, ⟨-, hd⟩ | ⟨-, hd⟩⟩
  · rw [hd]
    exact ⟨rfl, rfl⟩
  · rw [hd]
    exact ⟨rfl, rfl⟩
  · rw [hd]
    exact ⟨(t.inside o).requests_complete h.id, rfl⟩

theorem unasked_drop (s : System φ) (serial : Nat) : s.Unasked (s.drop serial).2 := by
  rcases s.drop_cases serial with h | ⟨x, h⟩
  all_goals
    rw [h]
    exact ⟨rfl, rfl⟩

theorem unasked_report (s : System φ) :
    s.Unasked (s.locked fun _ l => (Ending.ok l.report.pool.lastReport, l.report)).2 := by
  let body : OpenPool → Locked φ → Ending Stats × Locked φ :=
    fun _ l => (.ok l.report.pool.lastReport, l.report)
  rcases s.locked_cases body with ⟨-, h⟩ | ⟨o, -, -, h⟩ | ⟨o, -, -, h⟩
  all_goals
    change s.Unasked (s.locked body).2
    rw [h]
    exact ⟨rfl, rfl⟩

theorem unasked_touch (s : System φ) (serial : Nat) (change : Features → Features) :
    s.Unasked (s.touch serial change) := by
  refine ⟨rfl, ?_⟩
  change (s.calls.map _).countP _ = s.calls.countP _
  rw [List.countP_map]
  congr 1
  funext c
  cases c <;> rfl

theorem fresh_locked {α : Type} (s : System φ) (body : OpenPool → Locked φ → Ending α × Locked φ) :
    (s.locked body).2.fresh = s.fresh := by
  rcases s.locked_cases body with ⟨-, h⟩ | ⟨o, -, -, h⟩ | ⟨o, -, -, h⟩
  all_goals exact congrArg (fun r => r.2.fresh) h

end System

/-- Surfaces are created for acquisitions and to replace others. One that was made for an
    acquisition stays with it until it is handed out or given up. -/
def Moment.Balanced (m : Moment φ) : Prop :=
  m.requested.countP Request.isServed + m.before.fresh =
    (if m.move.rightSizes then m.requested.countP Request.isServed else 0) +
      (if m.handsFresh then 1 else 0) + (if m.givesUp then 1 else 0) + m.after.fresh

namespace System

variable [Allocator φ] {s : System φ} {o : OpenPool}

theorem Unasked.balanced {m : Move φ} (h : s.Unasked (s.step m).2)
    (hhands : (s.moment m).handsFresh = false) (hgives : (s.moment m).givesUp = false) :
    (s.moment m).Balanced := by
  have hnone : (s.moment m).requested = [] := Moment.requested_eq_nil h.requests
  have hfresh : (s.moment m).after.fresh = (s.moment m).before.fresh := h.fresh
  unfold Moment.Balanced
  rw [hnone, hhands, hgives, hfresh]
  simp

theorem balanced_acquire (ho : s.current = some o) (size : Size) :
    (s.moment (.acquire size)).Balanced := by
  obtain ⟨new, hnew, hserved⟩ := (s.inside o).obtain_served size
  rcases acquire_cases ho size with ⟨-, h⟩ | ⟨-, hrest⟩
  · exact Unasked.balanced
      ⟨congrArg (fun r => r.2.device.requests) h, congrArg (fun r => r.2.fresh) h⟩ rfl rfl
  have hafter : (s.acquire size).2.device.requests = new ++ s.device.requests ∧
      (s.acquire size).2.fresh = s.fresh + new.countP Request.isServed := by
    rcases hrest with ⟨x, cached, hr, h⟩ | ⟨error, hr, h⟩ | ⟨hr, h⟩
    · rw [h]
      refine ⟨hnew, ?_⟩
      rcases hserved with ⟨⟨y, hy⟩, hone⟩ | ⟨hnot, hzero⟩
      · obtain ⟨-, rfl⟩ := Prod.mk.inj (Ending.ok.inj (hr.symm.trans hy))
        simp [fresh, Call.isFresh, hone]
      · cases cached with
        | false => exact absurd hr (hnot x)
        | true => simp [fresh, Call.isFresh, hzero]
    all_goals
      rw [h]
      refine ⟨hnew, ?_⟩
      rcases hserved with ⟨⟨y, hy⟩, -⟩ | ⟨-, hzero⟩
      · exact absurd (hr.symm.trans hy) (by simp)
      · rw [hzero]
        rfl
  have hrequested : (s.moment (.acquire size)).requested = new.reverse :=
    Moment.requested_eq hafter.1
  have hfresh : (s.moment (.acquire size)).after.fresh = _ := hafter.2
  unfold Moment.Balanced
  rw [hrequested, List.countP_reverse, hfresh]
  change _ + s.fresh = 0 + 0 + 0 + _
  omega

theorem balanced_ending {m : Move φ} (hends : m.endsAcquire = true)
    (hrequests : (s.step m).2.device.requests = s.device.requests)
    (hfresh : s.fresh =
      (s.step m).2.fresh + if s.calls.head?.any Call.isFresh then 1 else 0) :
    (s.moment m).Balanced := by
  have hnone : (s.moment m).requested = [] := Moment.requested_eq_nil hrequests
  have hmove : m.rightSizes = false := by
    cases m with
    | collect | shrink => exact absurd hends (by simp [Move.endsAcquire])
    | _ => rfl
  have hhands : (s.moment m).handsFresh =
      ((s.moment m).handed?.isSome && s.calls.head?.any Call.isFresh) := rfl
  have hgives : (s.moment m).givesUp =
      (m.endsAcquire && (s.moment m).handed?.isNone && s.calls.head?.any Call.isFresh) := rfl
  unfold Moment.Balanced
  change _ + s.fresh = (if m.rightSizes then _ else _) + _ + _ + (s.step m).2.fresh
  rw [hnone, hmove, hhands, hgives, hends, hfresh]
  cases s.calls.head?.any Call.isFresh <;> cases (s.moment m).handed? <;> simp [Nat.add_comm]

omit [Allocator φ] in
theorem requests_flushed (ho : s.current = some o) (ok : Bool) :
    (s.flushed ok).2.device.requests = s.device.requests := by
  rcases s.flushed_awaited ok with ⟨-, h⟩ | ⟨x, cached, calls, hc⟩
  · rw [h]
  rcases flushed_cases hc ho ok with ⟨-, h⟩ | ⟨-, -, h⟩ | ⟨-, -, -, h⟩ | ⟨-, -, -, h⟩
  all_goals
    rw [h]
    rfl

omit [Allocator φ] in
theorem requests_unwind (s : System φ) : s.unwind.2.device.requests = s.device.requests := by
  rcases s.unwind_cases with h | ⟨c, calls, -, h⟩
  · rw [h]
  · rw [h]
    rfl

theorem balanced_flushed (ho : s.current = some o) (ok : Bool) :
    (s.moment (.flushed ok)).Balanced := by
  rcases s.flushed_awaited ok with ⟨hne, h⟩ | ⟨x, cached, calls, hc⟩
  · have hhead : s.calls.head?.any Call.isFresh = false := by
      cases hcalls : s.calls with
      | nil => rfl
      | cons c calls =>
        cases c with
        | flushing x cached => exact absurd hcalls (hne x cached calls)
        | registering x id n => rfl
    refine balanced_ending rfl (requests_flushed ho ok) ?_
    rw [hhead]
    exact (congrArg (fun r => r.2.fresh) h).symm
  · have hcalls : (s.flushed ok).2.calls = calls := by
      rcases flushed_cases hc ho ok with ⟨-, h⟩ | ⟨-, -, h⟩ | ⟨-, -, -, h⟩ | ⟨-, -, -, h⟩
      all_goals
        rw [h]
        rfl
    have hfresh : (s.step (.flushed ok)).2.fresh = calls.countP Call.isFresh :=
      congrArg (List.countP Call.isFresh) hcalls
    refine balanced_ending rfl (requests_flushed ho ok) ?_
    rw [hfresh, fresh, hc, List.countP_cons]
    rfl

theorem balanced_unwind : (s.moment .unwind).Balanced := by
  rcases s.unwind_cases with h | ⟨c, calls, hc, h⟩
  · have hnil : s.calls = [] := by
      cases hcalls : s.calls with
      | nil => rfl
      | cons c calls =>
        unfold unwind at h
        rw [hcalls] at h
        exact absurd h (by simp)
    refine balanced_ending rfl s.requests_unwind ?_
    rw [hnil]
    exact (congrArg (fun r => r.2.fresh) h).symm
  · have hfresh : (s.step .unwind).2.fresh = calls.countP Call.isFresh :=
      congrArg (fun r => r.2.fresh) h
    refine balanced_ending rfl s.requests_unwind ?_
    rw [hfresh, fresh, hc, List.countP_cons]
    rfl

/-- Whatever is created by right-sizing stays with the pool. -/
theorem balanced_rightSizing {m : Move φ} (hm : m.rightSizes = true)
    (hfresh : (s.step m).2.fresh = s.fresh) : (s.moment m).Balanced := by
  have hhands : (s.moment m).handsFresh = false ∧ (s.moment m).givesUp = false := by
    cases m with
    | collect | shrink => exact ⟨rfl, rfl⟩
    | _ => exact absurd hm (by simp [Move.rightSizes])
  unfold Moment.Balanced
  change _ + s.fresh = (if m.rightSizes then _ else _) + _ + _ + (s.step m).2.fresh
  rw [hm, hhands.1, hhands.2, hfresh]
  simp

theorem balanced_step (ho : s.current = some o) (m : Move φ) (stays : m.staysOpen = true) :
    (s.moment m).Balanced := by
  cases m with
  | openPool config => exact absurd stays (by simp [Move.staysOpen])
  | closePool => exact absurd stays (by simp [Move.staysOpen])
  | acquire size => exact balanced_acquire ho size
  | flushed ok => exact balanced_flushed ho ok
  | unwind => exact balanced_unwind
  | collect => exact balanced_rightSizing rfl (s.fresh_locked fun o l => l.collect o.config.maxAge)
  | shrink => exact balanced_rightSizing rfl (s.fresh_locked fun _ l => l.shrink)
  | submit serial => exact (s.unasked_submit serial).balanced rfl rfl
  | registered => exact (unasked_registered ho).balanced rfl rfl
  | fire hook => exact (s.unasked_fire hook).balanced rfl rfl
  | report => exact s.unasked_report.balanced rfl rfl
  | drop serial => exact (s.unasked_drop serial).balanced rfl rfl
  | touch serial change => exact (s.unasked_touch serial change).balanced rfl rfl
  | lastReport | availableCount | pendingCount | cachedBytes | isPending id | build features
  | adjust change | reportUsage usage => exact Unasked.balanced ⟨rfl, rfl⟩ rfl rfl

end System

/-- A period up to now: where the surfaces came from that were handed out, and where those went
    that were created. -/
structure Balance (period : List (Moment φ)) (s : System φ) : Prop where
  served : (requested period).countP Request.isServed =
    replaced period + period.countP Moment.handsFresh + givenUp period + s.fresh
  handed : (handedOut period).length = reuses period + period.countP Moment.handsFresh
  marked : s.Marked period

structure Counts (period : List (Moment φ)) (created reused : Nat) : Prop where
  created : created = (requested period).countP Request.isServed
  reused : reused = reuses period

/-- What a move adds to the period is in its reports and in the counters after it. -/
theorem Counts.step {period : List (Moment φ)} {m : Moment φ} {o o' : OpenPool}
    (h : Counts period o.pool.created o.pool.reused) (books : m.Accounted period o o') :
    Counts (period ++ [m]) (Stats.total Stats.created m.reports + o'.pool.created)
      (Stats.total Stats.reused m.reports + o'.pool.reused) where
  created := by rw [books.created, h.created, requested_append, List.countP_append]
  reused := by rw [books.reused, h.reused, reuses_append]

theorem Balance.start {s : System φ} (h : s.marks = []) : Balance [] s where
  served := by
    rw [s.fresh_eq_marks, h]
    rfl
  handed := rfl
  marked := by simp [System.Marked, h]

theorem Balance.step [Allocator φ] {period : List (Moment φ)} {s : System φ} {o : OpenPool}
    (h : Balance period s) (sound : s.Sound) (ho : s.current = some o) (m : Move φ)
    (stays : m.staysOpen = true) : Balance (period ++ [s.moment m]) (s.step m).2 where
  served := by
    have hs := h.served
    have hb : _ + s.fresh = _ + _ + _ + (s.step m).2.fresh := System.balanced_step ho m stays
    rw [requested_append, List.countP_append, replaced_append, givenUp_append, List.countP_append,
      List.countP_singleton]
    omega
  handed := by
    have hh := h.handed
    have hr := h.marked.reuses_iff m
    rw [handedOut_append, reuses_append, List.length_append, List.countP_append,
      List.countP_singleton]
    cases hx : (s.moment m).handed? with
    | none =>
      have hfresh : (s.moment m).handsFresh = false := by simp [Moment.handsFresh, hx]
      have hreuses : (s.moment m).reuses period = false := by simp [Moment.reuses, hx]
      simp [hfresh, hreuses, hh]
    | some x =>
      obtain ⟨ok, cached, calls, -, hc, -⟩ := System.flushed_of_handed hx
      have hidle := h.marked.head hc
      have hfresh : (s.moment m).handsFresh = !cached := by
        unfold Moment.handsFresh
        rw [hx]
        change (true && s.calls.head?.any Call.isFresh) = _
        rw [hc]
        rfl
      have hreuses : (s.moment m).reuses period = cached := by
        unfold Moment.reuses
        rw [hx]
        exact hidle
      rw [hfresh, hreuses]
      cases cached <;> simp <;> omega
  marked := h.marked.step sound ho m stays

theorem Log.Journal.Quiet.entries {j j' : Journal} (h : j.Quiet j') :
    ∃ new, j'.entries = new ++ j.entries ∧ reportsIn new = [] := by
  obtain ⟨events, he, rfl⟩ := h
  rw [foldl_emit]
  refine ⟨_, rfl, List.filterMap_eq_nil_iff.mpr fun entry hentry => ?_⟩
  obtain ⟨e, hmem, rfl⟩ := List.mem_map.mp (List.mem_reverse.mp hentry)
  have hno := he e hmem
  cases e with
  | reported stats => exact absurd hno (by simp [Event.isReport])
  | _ => rfl

/-- A move reports at most once, and then the report describes the pool as the move leaves it. -/
theorem System.Closes.reports {m : Moment φ} (h : m.before.Closes m.after) :
    m.reports = [] ∨ ∃ o, m.after.current = some o ∧ m.reports = [o.pool.lastReport] ∧
      o.pool.Described ∧ o.pool.lastReport.cache = m.after.device.usage := by
  rcases h with h | ⟨o, x, ho, hx, hl⟩
  · obtain ⟨new, hnew, hnone⟩ := h.entries
    rw [Moment.reports_eq hnew, hnone]
    exact .inl rfl
  · obtain ⟨new, hnew, hnone⟩ := hx.entries
    obtain ⟨hpool, hdevice, hjournal⟩ := Locked.mk.inj hl
    let stats := x.pool.stats x.device.usage
    have hentries : m.after.journal.entries =
        (x.journal.entry (.reported stats) :: new) ++ m.before.journal.entries := by
      rw [hjournal, List.cons_append, ← hnew]
      rfl
    have hreports : Log.reportsIn (x.journal.entry (.reported stats) :: new) = [stats] :=
      congrArg (stats :: ·) hnone
    refine .inr ⟨o, ho, ?_, hpool ▸ x.report_described, ?_⟩
    · rw [Moment.reports_eq hentries, hreports, hpool]
      rfl
    · rw [hpool, hdevice]
      rfl

theorem System.marks_reported [Allocator φ] {s : System φ} {o : OpenPool} (sound : s.Sound)
    (ho : s.current = some o) {m : Move φ} (stays : m.staysOpen = true)
    (hr : (s.moment m).reports ≠ []) (h : s.marks = []) : (s.step m).2.marks = [] := by
  rcases System.marks_step sound ho m stays with ⟨-, hsub⟩ | ⟨t, ht, -⟩
  · rw [h] at hsub
    exact List.subset_nil.mp hsub
  · cases m with
    | acquire size =>
      obtain ⟨new, hnew, hnone⟩ := (System.quiet_acquire ho size).entries
      exact absurd (by rw [Moment.reports_eq hnew, hnone]; rfl) hr
    | _ => exact absurd ht (by simp [System.moment, Moment.taken?])

namespace Life

variable [Allocator φ] {law : List (Moment φ) → Moment φ → Prop} {past : List (Moment φ)}
  {s : System φ}

/-- The counters and the calls in progress against what happened since the last report. -/
theorem period_exact (life : Life law past s)
    (hapart : ∀ m ∈ past, m.reports ≠ [] → m.before.acquiring = false) :
    ∃ o, s.current = some o ∧ Counts (sinceReport past) o.pool.created o.pool.reused ∧
      Balance (sinceReport past) s := by
  induction life with
  | @opened s config hs ok =>
    obtain ⟨hcalls, -, journal, he⟩ := opening ok
    have hquiet : reports [s.moment (.openPool config)] = [] := opening_reports
    have hnone : (s.moment (.openPool config)).reports = [] := by simpa [reports] using hquiet
    have hmarks : (s.step (.openPool config)).2.marks = [] := by
      rw [he]
      change s.calls.filterMap _ = _
      rw [hcalls]
      rfl
    have hperiod : sinceReport [s.moment (.openPool config)] = [s.moment (.openPool config)] := by
      simp [sinceReport, hnone]
    have hserved := opening_requested ok
    rw [hperiod]
    refine ⟨_, congrArg System.current he, ⟨?_, rfl⟩, ?_⟩
    · rw [hserved]
      rfl
    constructor
    case served =>
      rw [hserved, System.fresh_eq_marks, hmarks]
      rfl
    case handed => rfl
    case marked =>
      intro t ht
      exact absurd ht (by simp [hmarks])
  | @move past s life m stays lawful ih =>
    obtain ⟨o, ho, hcounts, hb⟩ := ih fun m' hm' => hapart m' (by simp [hm'])
    obtain ⟨o', ho', books⟩ := hb.marked.accounted ho m stays
    have hcounts' := hcounts.step books
    rw [sinceReport_append]
    rcases (System.closes_step ho m stays).reports (m := s.moment m) with
      hnone | ⟨o₁, ho₁, hone, hdescribed, -⟩
    · rw [hnone] at hcounts' ⊢
      simp only [Stats.total, List.foldr_nil, Nat.zero_add] at hcounts'
      exact ⟨o', ho', hcounts', hb.step life.sound ho m stays⟩
    · have hr : (s.moment m).reports ≠ [] := by simp [hone]
      have hmarks : s.marks = [] := by
        have hapart' : s.acquiring = false := hapart (s.moment m) (by simp) hr
        simpa [System.acquiring] using hapart'
      rw [hone]
      have hmarks' := System.marks_reported life.sound ho stays hr hmarks
      exact ⟨o₁, ho₁, ⟨hdescribed.created, hdescribed.reused⟩, .start hmarks'⟩

theorem report_exact (life : Life law past s)
    (hapart : ∀ m ∈ past, m.reports ≠ [] → m.before.acquiring = false)
    {earlier later : List (Moment φ)} {m : Moment φ} (hpast : past = earlier ++ m :: later)
    {r : Stats} (hr : r ∈ m.reports) :
    Counts (period earlier m) r.created r.reused ∧ Balance (period earlier m) m.after ∧
      m.after.fresh = 0 := by
  have hmem : m ∈ past := by simp [hpast]
  have hr' : m.reports ≠ [] := List.ne_nil_of_mem hr
  obtain ⟨t, move, rfl⟩ : ∃ (t : System φ) (move : Move φ), m = t.moment move :=
    ⟨_, _, (life.moment_eq hmem).symm⟩
  rcases life.moment_cases hpast with ⟨config, hm, -⟩ | ⟨life', stays⟩
  · have hnone : reports [t.moment move] = [] := by
      rw [hm]
      exact opening_reports
    exact absurd (by simpa [reports] using hnone) hr'
  change Life law earlier t at life'
  change move.staysOpen = true at stays
  obtain ⟨o, ho, hcounts, hb⟩ :=
    life'.period_exact fun m' hm' => hapart m' (by simp [hpast, hm'])
  obtain ⟨o', ho', books⟩ := hb.marked.accounted ho move stays
  have hcounts' := hcounts.step books
  rcases (System.closes_step ho move stays).reports (m := t.moment move) with
    hnone | ⟨o₁, ho₁, hone, hdescribed, -⟩
  · exact absurd hnone hr'
  obtain rfl : o' = o₁ := Option.some.inj (ho'.symm.trans ho₁)
  have hapart' : t.acquiring = false := hapart _ hmem hr'
  have hmarks : (t.step move).2.marks = [] :=
    System.marks_reported life'.sound ho stays hr' (by simpa [System.acquiring] using hapart')
  rw [hone] at hr hcounts'
  obtain rfl := List.mem_singleton.mp hr
  rw [hdescribed.created, hdescribed.reused] at hcounts'
  refine ⟨hcounts', hb.step life'.sound ho move stays, ?_⟩
  change (t.step move).2.fresh = 0
  rw [System.fresh_eq_marks, hmarks]
  rfl

end Life

/-- What one report says about its period, if no report is made while an acquisition is in progress.
    The surfaces that were handed out are counted, and apart from these only replacements and what
    was given up. In a period without them the share of reuses is one of acquisitions. -/
theorem reuse_share_exact [Allocator φ] {law : List (Moment φ) → Moment φ → Prop}
    {past : List (Moment φ)} {s : System φ} (life : Life law past s)
    (hapart : ∀ m ∈ past, m.reports ≠ [] → m.before.acquiring = false)
    {earlier later : List (Moment φ)} {m : Moment φ} (hpast : past = earlier ++ m :: later)
    {r : Stats} (hr : r ∈ m.reports) :
    r.created = (requested (period earlier m)).countP Request.isServed ∧
      r.reused = reuses (period earlier m) ∧
      r.created + r.reused = (handedOut (period earlier m)).length +
        replaced (period earlier m) + givenUp (period earlier m) ∧
      (r.isIdle = true ↔ handedOut (period earlier m) = [] ∧ replaced (period earlier m) = 0 ∧
        givenUp (period earlier m) = 0) ∧
      (replaced (period earlier m) = 0 → givenUp (period earlier m) = 0 →
        r.reusePercent =
          percent (reuses (period earlier m)) (handedOut (period earlier m)).length) := by
  obtain ⟨⟨hcreated, hreused⟩, hb, hfresh⟩ := life.report_exact hapart hpast hr
  have hserved := hb.served
  have hhanded := hb.handed
  have hsum : r.created + r.reused = (handedOut (period earlier m)).length +
      replaced (period earlier m) + givenUp (period earlier m) := by omega
  refine ⟨hcreated, hreused, hsum, ?_, fun hreplaced hgiven => ?_⟩
  · have hidle : r.isIdle = true ↔ r.created + r.reused = 0 := by
      simp [Stats.isIdle]
    rw [hidle, ← List.length_eq_zero_iff]
    omega
  · have hall : r.created + r.reused = (handedOut (period earlier m)).length := by omega
    rw [← hall, ← hreused]
    rfl

open Scenario in
/-- Two surfaces are idle. One is handed out again, a third is made and given up, and the other is
    replaced, for it has become oversized. The report at the end counts three. -/
theorem reuse_share_exact_of_all_kinds :
    ∃ (past : List (Moment Faults)) (s : System Faults), Life (fun _ _ => True) past s ∧
      (∀ m ∈ past, m.reports ≠ [] → m.before.acquiring = false) ∧
      ∃ earlier m r, past = earlier ++ [m] ∧ r ∈ m.reports ∧
        (handedOut (period earlier m)).length = 1 ∧ reuses (period earlier m) = 1 ∧
        replaced (period earlier m) = 1 ∧ givenUp (period earlier m) = 1 ∧
        r.created + r.reused = 3 := by
  have opened : Life (fun _ _ => True) _ _ := .opened none (.start ({} : Faults) {} {}) rfl
  have first := (opened.move (.acquire ⟨8, 8⟩) rfl trivial).move (.flushed true) rfl trivial
  have second := (first.move (.acquire ⟨4, 4⟩) rfl trivial).move (.flushed true) rfl trivial
  have out := ((second.move (.submit 1) rfl trivial).move .registered rfl trivial).move (.submit 2)
    rfl trivial
  have back := ((out.move .registered rfl trivial).move (.fire 1) rfl trivial).move (.fire 2)
    rfl trivial
  have again := (back.move (.acquire ⟨8, 8⟩) rfl trivial).move (.flushed true) rfl trivial
  have failed := (again.move (.acquire ⟨2, 2⟩) rfl trivial).move (.flushed false) rfl trivial
  have grown := failed.move (.touch 2 fun f => { f with oversized := true }) rfl trivial
  have life := grown.move .collect rfl trivial
  have hlast : ∀ (p : List (Moment Faults)) (m : Moment Faults), p ++ [m] = p ++ m :: [] :=
    fun _ _ => rfl
  obtain ⟨-, -, hsum, -⟩ := reuse_share_exact life (by decide) (hlast _ _) List.mem_cons_self
  exact ⟨_, _, life, by decide, _, _, _, rfl, List.mem_cons_self, by decide, by decide, by decide,
    by decide, hsum⟩

open Scenario in
/-- An idle surface is replaced and nothing is handed out, yet the report is not an idle one. -/
theorem reuse_share_counts_replacement :
    ¬∀ (past : List (Moment Faults)) (s : System Faults), Life (fun _ _ => True) past s →
      (∀ m ∈ past, m.reports ≠ [] → m.before.acquiring = false) →
      ∀ earlier m later r, past = earlier ++ m :: later → r ∈ m.reports →
        r.created + r.reused = (handedOut (period earlier m)).length ∧
          r.reused = reuses (period earlier m) ∧
          (r.isIdle = true ↔ handedOut (period earlier m) = []) := by
  have opened : Life (fun _ _ => True) _ _ := .opened none (.start ({} : Faults) {} {}) rfl
  have out := (opened.move (.acquire ⟨8, 8⟩) rfl trivial).move (.flushed true) rfl trivial
  have back := ((out.move (.submit 1) rfl trivial).move .registered rfl trivial).move (.fire 1)
    rfl trivial
  have grown := back.move (.touch 1 fun f => { f with oversized := true }) rfl trivial
  have life := grown.move .collect rfl trivial
  have hlast : ∀ (p : List (Moment Faults)) (m : Moment Faults), p ++ [m] = p ++ m :: [] :=
    fun _ _ => rfl
  intro h
  obtain ⟨hsum, -⟩ := h _ _ life (by decide) _ _ _ _ (hlast _ _) List.mem_cons_self
  exact absurd hsum (by decide)

end SurfaceReuse
