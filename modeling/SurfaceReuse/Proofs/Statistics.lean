import SurfaceReuse.Proofs.Accounts
import SurfaceReuse.Proofs.IdleOrder
import SurfaceReuse.Scenario.Faults

set_option autoImplicit false

/-!
Statistics over the life of a pool. What all reports say together and what the counters say since
the last of them is what really happened: nothing is lost when a report sets the counters back, and
nothing is counted twice, however operations are nested and wherever they break off.
-/

namespace SurfaceReuse

variable {φ : Type}

namespace Moment

/-- The requests that the device got in the move, the oldest first. -/
def requested (m : Moment φ) : List Request :=
  newSince m.before.device.requests m.after.device.requests

/-- The reports made in the move, the oldest first. -/
def reports (m : Moment φ) : List Stats :=
  Log.reportsIn (newSince m.before.journal.entries m.after.journal.entries)

/-- The surface that a call has got hold of with the move, and whether it was an idle one. -/
def taken? : Moment φ → Option (Nat × Bool)
  | ⟨before, .acquire _, .entered, after⟩ =>
    after.calls.head?.map fun c => (c.surface.serial, before.row.contains c.surface.serial)
  | _ => none

end Moment

section History

variable (past : List (Moment φ))

def requested : List Request :=
  past.flatMap Moment.requested

def reports : List Stats :=
  past.flatMap Moment.reports

/-- Whether the surface was an idle one when a call got hold of it for the last time. -/
def wasIdle (n : Nat) : Bool :=
  ((past.filterMap Moment.taken?).reverse.lookup n).getD false

/-- Whether the move hands out a surface that was an idle one. -/
def Moment.reuses (m : Moment φ) : Bool :=
  m.handed?.any fun x => wasIdle past x.serial

/-- How many surfaces were handed out that were idle ones. -/
def reuses : Nat :=
  (List.range past.length).countP fun i => past[i]?.any (Moment.reuses (past.take i))

end History

theorem Moment.requested_eq {m : Moment φ} {new : List Request}
    (h : m.after.device.requests = new ++ m.before.device.requests) :
    m.requested = new.reverse := by
  unfold requested
  rw [h, newSince_append]

theorem Moment.reports_eq {m : Moment φ} {new : List Log.Entry}
    (h : m.after.journal.entries = new ++ m.before.journal.entries) :
    m.reports = (Log.reportsIn new).reverse := by
  unfold reports Log.reportsIn
  rw [h, newSince_append, List.filterMap_reverse]

theorem requested_append (past : List (Moment φ)) (m : Moment φ) :
    requested (past ++ [m]) = requested past ++ m.requested := by
  simp [requested]

theorem reports_append (past : List (Moment φ)) (m : Moment φ) :
    reports (past ++ [m]) = reports past ++ m.reports := by
  simp [reports]

theorem wasIdle_append (past : List (Moment φ)) (m : Moment φ) (n : Nat) :
    wasIdle (past ++ [m]) n =
      (m.taken?.bind fun t => if t.1 = n then some t.2 else none).getD (wasIdle past n) := by
  unfold wasIdle
  rw [List.filterMap_append, List.reverse_append]
  cases h : m.taken? with
  | none => simp [h]
  | some t =>
    have hone : [m].filterMap Moment.taken? = [t] := by simp [h]
    rw [hone, List.reverse_singleton, List.singleton_append, Option.bind_some, List.lookup_cons]
    by_cases ht : n = t.1
    · simp [ht]
    · rw [beq_false_of_ne ht, if_neg (Ne.symm ht)]
      rfl

theorem reuses_append (past : List (Moment φ)) (m : Moment φ) :
    reuses (past ++ [m]) = reuses past + if m.reuses past then 1 else 0 := by
  unfold reuses
  rw [List.length_append, List.length_singleton, List.range_succ, List.countP_append,
    List.countP_singleton]
  congr 1
  · refine List.countP_congr fun i hi => ?_
    have hlt := List.mem_range.mp hi
    rw [List.getElem?_append_left hlt, List.take_append_of_le_length (Nat.le_of_lt hlt)]
  · rw [List.getElem?_concat_length, List.take_left]
    rfl

/-- What the call says about the surface that it gets ready: whether it was an idle one. -/
def Call.mark? : Call → Option (Nat × Bool)
  | .flushing x cached => some (x.serial, cached)
  | .registering _ _ _ => none

/-- What a move does to the books of the pool in use. -/
structure Moment.Accounted (past : List (Moment φ)) (m : Moment φ) (o o' : OpenPool) : Prop where
  created : Stats.total Stats.created m.reports + o'.pool.created =
    o.pool.created + m.requested.countP Request.isServed
  reused : Stats.total Stats.reused m.reports + o'.pool.reused =
    o.pool.reused + if m.reuses past then 1 else 0
  lastReport : o'.pool.lastReport = m.reports.getLast?.getD o.pool.lastReport
  poisoned : o'.poisoned = (o.poisoned || m.requested.any Request.isPanic)

namespace System

variable {s : System φ} {o : OpenPool}

def marks (s : System φ) : List (Nat × Bool) :=
  s.calls.filterMap Call.mark?

theorem Sound.marks_nodup (h : s.Sound) : (s.marks.map Prod.fst).Nodup := by
  have hsub : ∀ calls : List Call, ((calls.filterMap Call.mark?).map Prod.fst).Sublist
      (calls.map fun c => c.surface.serial) := by
    intro calls
    induction calls with
    | nil => exact List.Sublist.refl _
    | cons c calls ih =>
      cases c with
      | flushing x cached => exact ih.cons_cons _
      | registering x id n => exact ih.cons _
  exact (hsub s.calls).nodup h.calls_nodup

theorem marks_touch (serial : Nat) (change : Features → Features) :
    (s.touch serial change).marks = s.marks := by
  change (s.calls.map _).filterMap _ = s.calls.filterMap _
  rw [List.filterMap_map]
  congr
  funext c
  cases c with
  | flushing x cached =>
    exact congrArg (fun n => some (n, cached)) (Surface.touch_serial serial change x)
  | registering x id n => rfl

theorem marks_fire (hook : Nat) : (s.fire hook).2.marks = s.marks := by
  rcases s.fire_cases hook with h | ⟨h, -, -, hf⟩
  · rw [h]
  rw [hf]
  rcases ({ s with hooks := s.hooks.erase h } : System φ).deliver_cases h with
    ⟨-, hd⟩ | ⟨o, -, -, ⟨-, hd⟩ | ⟨-, hd⟩⟩
  all_goals
    rw [hd]
    rfl

theorem marks_locked {α : Type} (body : OpenPool → Locked φ → Ending α × Locked φ) :
    (s.locked body).2.marks = s.marks := by
  rcases s.locked_cases body with ⟨-, hl⟩ | ⟨o, -, -, hl⟩ | ⟨o, -, -, hl⟩
  all_goals exact congrArg (fun r => r.2.marks) hl

theorem marks_submit (serial : Nat) : (s.submit serial).2.marks = s.marks := by
  rcases s.submit_cases serial with ⟨-, h⟩ | ⟨o, x, t, -, ht, h⟩
  · rw [h]
  · obtain ⟨-, -, rfl⟩ := takeHeld_eq_some ht
    rcases h with ⟨-, h⟩ | ⟨-, -, h⟩ | ⟨-, -, h⟩
    all_goals exact congrArg (fun r => r.2.marks) h

theorem marks_drop (serial : Nat) : (s.drop serial).2.marks = s.marks := by
  rcases s.drop_cases serial with h | ⟨x, h⟩
  all_goals exact congrArg (fun r => r.2.marks) h

/-- Calls that return take their marks along. -/
theorem marks_return {c : Call} {calls : List Call} (hc : s.calls = c :: calls) {t : System φ}
    (ht : t.calls = calls) : t.marks ⊆ s.marks := by
  unfold marks
  rw [hc, ht]
  exact List.filterMap_subset _ (List.subset_cons_self c calls)

theorem marks_flushed (ho : s.current = some o) (ok : Bool) : (s.flushed ok).2.marks ⊆ s.marks := by
  rcases s.flushed_awaited ok with ⟨-, h⟩ | ⟨x, cached, calls, hc⟩
  · rw [h]
    exact List.Subset.refl _
  rcases flushed_cases hc ho ok with ⟨-, h⟩ | ⟨-, -, h⟩ | ⟨-, -, -, h⟩ | ⟨-, -, -, h⟩
  all_goals
    rw [h]
    exact marks_return hc rfl

theorem marks_registered (ho : s.current = some o) : s.registered.2.marks ⊆ s.marks := by
  rcases s.registered_awaited with ⟨-, h⟩ | ⟨x, id, n, calls, hc⟩
  · rw [h]
    exact List.Subset.refl _
  rcases registered_cases hc ho with ⟨-, h⟩ | ⟨-, h⟩
  · rw [h, abandon_eq (s := { s with calls }) ho]
    exact marks_return hc rfl
  · rw [h]
    exact marks_return hc rfl

theorem marks_unwind : s.unwind.2.marks ⊆ s.marks := by
  rcases s.unwind_cases with h | ⟨c, calls, hc, h⟩
  · rw [h]
    exact List.Subset.refl _
  · rw [h]
    exact marks_return hc rfl

variable [Allocator φ]

/-- A call marks its surface as an idle one exactly if it was in the row. -/
theorem marks_acquire (sound : s.Sound) (ho : s.current = some o) (size : Size) :
    ((s.moment (.acquire size)).taken? = none ∧ (s.acquire size).2.marks = s.marks) ∨
      ∃ t, (s.moment (.acquire size)).taken? = some t ∧
        (s.acquire size).2.marks = t :: s.marks := by
  rcases acquire_cases ho size with ⟨-, h⟩ | ⟨-, ⟨x, cached, hr, h⟩ | ⟨error, -, h⟩ | ⟨-, h⟩⟩
  · exact .inl ⟨by simp [moment, Moment.taken?, step, h], by rw [h]; rfl⟩
  · refine .inr ⟨(x.serial, cached), ?_, by rw [h]; rfl⟩
    have hrow : decide (x.serial ∈ s.row) = cached := by
      rcases (s.inside o).obtain_cases size with ⟨y, hy, hok, -⟩ | ⟨-, -, hfresh⟩
      · obtain ⟨rfl, rfl⟩ := Prod.mk.inj (Ending.ok.inj (hok.symm.trans hr))
        rw [row, available_eq ho]
        exact decide_eq_true (List.mem_map_of_mem (List.mem_of_find?_eq_some hy))
      · obtain ⟨rfl, hx⟩ := hfresh _ hr
        have hlater : s.device.built < x.serial := hx.later
        refine decide_eq_false fun hm => ?_
        have hle := sound.row_le hm
        omega
    simp [moment, Moment.taken?, step, h, Call.surface, Surface.withFeatures, hrow]
  · exact .inl ⟨by simp [moment, Moment.taken?, step, h], by rw [h]; rfl⟩
  · exact .inl ⟨by simp [moment, Moment.taken?, step, h], by rw [h]; rfl⟩

theorem marks_step (sound : s.Sound) (ho : s.current = some o) (m : Move φ)
    (stays : m.staysOpen = true) :
    ((s.moment m).taken? = none ∧ (s.step m).2.marks ⊆ s.marks) ∨
      ∃ t, (s.moment m).taken? = some t ∧ (s.step m).2.marks = t :: s.marks := by
  have hsame : (s.moment m).taken? = none → (s.step m).2.marks = s.marks →
      (s.moment m).taken? = none ∧ (s.step m).2.marks ⊆ s.marks :=
    fun hn h => ⟨hn, h ▸ List.Subset.refl _⟩
  cases m with
  | openPool config => exact absurd stays (by simp [Move.staysOpen])
  | closePool => exact absurd stays (by simp [Move.staysOpen])
  | acquire size =>
    rcases marks_acquire sound ho size with ⟨hn, h⟩ | h
    · exact .inl (hsame hn h)
    · exact .inr h
  | flushed ok => exact .inl ⟨rfl, marks_flushed ho ok⟩
  | submit serial => exact .inl (hsame rfl (marks_submit serial))
  | registered => exact .inl ⟨rfl, marks_registered ho⟩
  | unwind => exact .inl ⟨rfl, marks_unwind⟩
  | fire hook => exact .inl (hsame rfl (marks_fire hook))
  | collect => exact .inl (hsame rfl (marks_locked fun o l => l.collect o.config.maxAge))
  | shrink => exact .inl (hsame rfl (marks_locked fun _ l => l.shrink))
  | report =>
    exact .inl (hsame rfl (marks_locked fun _ l => (Ending.ok l.report.pool.lastReport, l.report)))
  | drop serial => exact .inl (hsame rfl (marks_drop serial))
  | touch serial change => exact .inl (hsame rfl (marks_touch serial change))
  | lastReport | availableCount | pendingCount | cachedBytes | isPending id | build features
  | adjust change | reportUsage usage => exact .inl (hsame rfl rfl)

/-- The history tells how the surfaces of the calls in progress came out of the pool. -/
def Marked (past : List (Moment φ)) (s : System φ) : Prop :=
  ∀ t ∈ s.marks, wasIdle past t.1 = t.2

theorem Marked.step {past : List (Moment φ)} (h : s.Marked past) (sound : s.Sound)
    (ho : s.current = some o) (m : Move φ) (stays : m.staysOpen = true) :
    (s.step m).2.Marked (past ++ [s.moment m]) := by
  intro t ht
  rw [wasIdle_append]
  rcases System.marks_step sound ho m stays with ⟨hn, hsub⟩ | ⟨new, hn, he⟩
  · rw [hn]
    exact h t (hsub ht)
  · have hnodup := (sound.step m).marks_nodup
    rw [he, List.map_cons, List.nodup_cons] at hnodup
    rw [hn, Option.bind_some]
    rw [he] at ht
    rcases List.mem_cons.mp ht with rfl | ht
    · rw [if_pos rfl]
      rfl
    · have hne : new.1 ≠ t.1 := fun h => hnodup.1 (h ▸ List.mem_map_of_mem ht)
      rw [if_neg hne]
      exact h t ht

omit [Allocator φ] in
theorem Marked.head {past : List (Moment φ)} (h : s.Marked past) {x : Surface} {cached : Bool}
    {calls : List Call} (hc : s.calls = .flushing x cached :: calls) :
    wasIdle past x.serial = cached := by
  refine h (x.serial, cached) ?_
  unfold marks
  rw [hc]
  exact List.mem_cons_self

theorem Marked.reuses_iff {past : List (Moment φ)} (h : s.Marked past) (m : Move φ) :
    (s.moment m).reuses past = true ↔ s.Reuses m := by
  unfold Moment.reuses
  rw [Option.any_eq_true]
  constructor
  · rintro ⟨x, hx, hidle⟩
    obtain ⟨ok, cached, calls, -, hc, -⟩ := System.flushed_of_handed hx
    obtain rfl : true = cached := hidle.symm.trans (h.head hc)
    exact ⟨x, calls, hx, hc⟩
  · rintro ⟨x, calls, hx, hc⟩
    exact ⟨x, hx, h.head hc⟩

theorem Marked.accounted {past : List (Moment φ)} (h : s.Marked past) (ho : s.current = some o)
    (m : Move φ) (stays : m.staysOpen = true) :
    ∃ o', (s.step m).2.current = some o' ∧ (s.moment m).Accounted past o o' := by
  obtain ⟨k, haccounts, hreuses⟩ : ∃ k, s.Accounts (s.step m).2 k ∧
      (if (s.moment m).reuses past then 1 else 0) = k := by
    rcases System.accounts_step ho m stays with ⟨ha, hr⟩ | ⟨ha, hr⟩
    · exact ⟨1, ha, if_pos ((h.reuses_iff m).mpr hr)⟩
    · exact ⟨0, ha, if_neg (mt (h.reuses_iff m).mp hr)⟩
  obtain ⟨o₁, o', panics, ho₁, ho', ⟨entries, new, htally, hpanics⟩, hp⟩ := haccounts
  obtain rfl : o = o₁ := Option.some.inj (ho.symm.trans ho₁)
  have hreports : (s.moment m).reports = (Log.reportsIn entries).reverse :=
    Moment.reports_eq htally.entries_eq
  have hrequested : (s.moment m).requested = new.reverse :=
    Moment.requested_eq htally.requests_eq
  refine ⟨o', ho', ?_⟩
  constructor
  case created =>
    rw [hreports, hrequested, Stats.total_reverse, List.countP_reverse]
    exact htally.created
  case reused =>
    rw [hreports, Stats.total_reverse, hreuses]
    exact htally.reused
  case lastReport =>
    rw [hreports, List.getLast?_reverse]
    exact htally.lastReport
  case poisoned => rw [hrequested, List.any_reverse, hp, hpanics]

end System

namespace Life

variable [Allocator φ] {law : List (Moment φ) → Moment φ → Prop} {past : List (Moment φ)}
  {s : System φ}

theorem marked (life : Life law past s) : s.Marked past := by
  induction life with
  | @opened s config hs ok =>
    obtain ⟨hcalls, -, journal, he⟩ := opening ok
    intro t ht
    have hnone : (s.step (.openPool config)).2.marks = [] := by
      rw [he]
      change s.calls.filterMap _ = _
      rw [hcalls]
      rfl
    exact absurd ht (hnone ▸ List.not_mem_nil)
  | @move past s life m stays lawful ih =>
    obtain ⟨o, ho⟩ := life.current
    exact ih.step life.sound ho m stays

theorem opening_reports {config : Option Config} :
    reports [s.moment (.openPool config)] = [] := by
  obtain ⟨entries, he, hn⟩ := s.unreported_openPool config
  have hnew : (s.moment (.openPool config)).reports = [] := by
    rw [Moment.reports_eq he, hn]
    rfl
  simp [reports, hnew]

theorem opening_requested {config : Option Config} (ok : (s.step (.openPool config)).1 = .done) :
    requested [s.moment (.openPool config)] = [] := by
  obtain ⟨-, -, journal, he⟩ := opening ok
  have hnew : (s.moment (.openPool config)).requested = [] := by
    have hsame : (s.step (.openPool config)).2.device.requests = [] ++ s.device.requests := by
      rw [he]
      exact (s.device.requests_releaseAll s.pooled).1
    exact Moment.requested_eq (m := s.moment (.openPool config)) hsame
  simp [requested, hnew]

/-- The counters of the pool in use against what happened since it was opened. -/
structure Exact (past : List (Moment φ)) (o : OpenPool) : Prop where
  created : Stats.total Stats.created (reports past) + o.pool.created =
    (requested past).countP Request.isServed
  reused : Stats.total Stats.reused (reports past) + o.pool.reused = reuses past
  lastReport : o.pool.lastReport = (reports past).getLast?.getD {}
  poisoned : o.poisoned = (requested past).any Request.isPanic

theorem exact (life : Life law past s) : ∃ o, s.current = some o ∧ Exact past o := by
  induction life with
  | @opened s config hs ok =>
    obtain ⟨-, -, journal, he⟩ := opening ok
    refine ⟨_, congrArg System.current he, ?_, ?_, ?_, ?_⟩
    · rw [opening_reports, opening_requested ok]
      rfl
    · rw [opening_reports]
      rfl
    · rw [opening_reports]
      rfl
    · rw [opening_requested ok]
      rfl
  | @move past s life m stays lawful ih =>
    obtain ⟨o, ho, ih⟩ := ih
    obtain ⟨o', ho', h⟩ := life.marked.accounted ho m stays
    have hcreated := h.created
    have hreused := h.reused
    have ihc := ih.created
    have ihu := ih.reused
    refine ⟨o', ho', ?_⟩
    constructor
    case created =>
      rw [reports_append, requested_append, Stats.total_append, List.countP_append]
      omega
    case reused =>
      rw [reports_append, Stats.total_append, reuses_append]
      omega
    case lastReport =>
      rw [reports_append, List.getLast?_append, h.lastReport, ih.lastReport]
      cases (s.moment m).reports.getLast? <;> rfl
    case poisoned => rw [requested_append, List.any_append, h.poisoned, ih.poisoned]

end Life

/-- All reports and the current counters together are exact: what they count as created is what was
    served, and what they count as reused is what was handed out and had been idle. The last report
    is the one that the pool remembers, and it gives it away unless a panic has poisoned it. -/
theorem statistics_exact [Allocator φ] {law : List (Moment φ) → Moment φ → Prop}
    {past : List (Moment φ)} {s : System φ} (life : Life law past s) :
    ∃ o, s.current = some o ∧
      Stats.total Stats.created (reports past) + o.pool.created =
        (requested past).countP Request.isServed ∧
      Stats.total Stats.reused (reports past) + o.pool.reused = reuses past ∧
      o.pool.lastReport = (reports past).getLast?.getD {} ∧
      (s.step .lastReport).1 =
        if (requested past).any Request.isPanic then .failed .poisoned
        else .stats ((reports past).getLast?.getD {}) := by
  obtain ⟨o, ho, h⟩ := life.exact
  refine ⟨o, ho, h.created, h.reused, h.lastReport, ?_⟩
  rw [← h.poisoned, ← h.lastReport]
  exact System.inspect_eq ho fun p => .stats p.lastReport

open Scenario in
/-- A surface is handed out, comes back with its completion, which is reported, and goes out again.
    The second time another report is made while it gets ready. -/
theorem statistics_exact_of_reuse :
    ∃ (past : List (Moment Faults)) (s : System Faults), Life (fun _ _ => True) past s ∧
      (reports past).length = 2 ∧ (requested past).countP Request.isServed = 1 ∧
      reuses past = 1 ∧
      ∃ o, s.current = some o ∧
        Stats.total Stats.created (reports past) + o.pool.created =
          (requested past).countP Request.isServed ∧
        Stats.total Stats.reused (reports past) + o.pool.reused = reuses past ∧
        o.pool.lastReport = (reports past).getLast?.getD {} ∧
        (s.step .lastReport).1 =
          if (requested past).any Request.isPanic then .failed .poisoned
          else .stats ((reports past).getLast?.getD {}) := by
  have opened : Life (fun _ _ => True) _ _ := .opened none (.start ({} : Faults) {} {}) rfl
  have first := (opened.move (.acquire ⟨8, 8⟩) rfl trivial).move (.flushed true) rfl trivial
  have back := ((first.move (.submit 1) rfl trivial).move .registered rfl trivial).move (.fire 1)
    rfl trivial
  have life := ((back.move (.acquire ⟨8, 8⟩) rfl trivial).move .report rfl trivial).move
    (.flushed true) rfl trivial
  exact ⟨_, _, life, by decide, by decide, by decide, statistics_exact life⟩

open Scenario in
/-- A panic before the first report: the pool does not even give away that there was none. -/
theorem last_report_withheld_when_poisoned :
    ¬∀ (past : List (Moment Faults)) (s : System Faults), Life (fun _ _ => True) past s →
      (s.step .lastReport).1 = .stats ((reports past).getLast?.getD {}) := by
  have opened : Life (fun _ _ => True) _ _ :=
    .opened none (.start ({ panic := true } : Faults) {} {}) rfl
  have life := opened.move (.acquire ⟨8, 8⟩) rfl trivial
  intro h
  have hreply : Reply.failed .poisoned = .stats _ := h _ _ life
  exact absurd hreply (by simp)

end SurfaceReuse
