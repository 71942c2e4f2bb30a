import Mathlib.Data.List.Basic
import SurfaceReuse.Proofs.Ownership

set_option autoImplicit false

/-!
Bookkeeping. A report takes the counters along and sets them back, and a request that is served is
counted once. So between any two states the reports and the counters grow together by what was
requested and what was reused; operations add up, whatever they leave undone.
-/

namespace SurfaceReuse

/-- What the log entry reports, if it is a report. -/
def Log.Entry.report? (e : Log.Entry) : Option Stats :=
  match e.event with
  | .reported stats => some stats
  | _ => none

def Log.reportsIn (entries : List Log.Entry) : List Stats :=
  entries.filterMap Log.Entry.report?

theorem Log.reportsIn_of_ne {e : Log.Event} (he : ∀ stats, e ≠ .reported stats) (written : Bool) :
    reportsIn [⟨e, written⟩] = [] := by
  cases e with
  | reported stats => exact absurd rfl (he stats)
  | _ => rfl

/-- What a count comes to over several reports. -/
def Stats.total (count : Stats → Nat) (reports : List Stats) : Nat :=
  reports.foldr (fun r n => count r + n) 0

theorem Stats.total_append (count : Stats → Nat) (xs ys : List Stats) :
    total count (xs ++ ys) = total count xs + total count ys := by
  induction xs with
  | nil => exact (Nat.zero_add _).symm
  | cons x xs ih =>
    change count x + total count (xs ++ ys) = count x + total count xs + total count ys
    rw [ih, Nat.add_assoc]

theorem Stats.total_reverse (count : Stats → Nat) (xs : List Stats) :
    total count xs.reverse = total count xs := by
  induction xs with
  | nil => rfl
  | cons x xs ih =>
    rw [List.reverse_cons, total_append, ih]
    exact Nat.add_comm _ _

namespace Request

/-- A surface came of the request that can be used. -/
def isServed (r : Request) : Bool := r.outcome == .served

def isPanic (r : Request) : Bool := r.outcome == .panicked

end Request

def Device.Grant.outcome : Device.Grant → Outcome
  | .refused => .refused
  | .panicked => .panicked
  | .made x => if x.valid then .served else .unusable

variable {φ : Type}

theorem Device.request_recorded [Allocator φ] (d : Device φ) (size : Size) (id : BufferId) :
    ∃ r, (d.request size id).2.requests = r :: d.requests ∧
      r.outcome = (d.request size id).1.outcome := by
  unfold request
  cases Allocator.answer d.allocator size id with
  | mk answer allocator => cases answer <;> exact ⟨_, rfl, rfl⟩

namespace Locked

/-- Between the two states these entries and requests were added, the newest first, and so many
    reuses were counted. -/
structure Tally (l l' : Locked φ) (entries : List Log.Entry) (requests : List Request)
    (reuses : Nat) : Prop where
  entries_eq : l'.journal.entries = entries ++ l.journal.entries
  requests_eq : l'.device.requests = requests ++ l.device.requests
  created : Stats.total Stats.created (Log.reportsIn entries) + l'.pool.created =
    l.pool.created + requests.countP Request.isServed
  reused : Stats.total Stats.reused (Log.reportsIn entries) + l'.pool.reused =
    l.pool.reused + reuses
  lastReport : l'.pool.lastReport = (Log.reportsIn entries).head?.getD l.pool.lastReport

variable {l l' l'' : Locked φ} {entries entries' : List Log.Entry}
  {requests requests' : List Request} {n n' : Nat} {panics panics' : Bool}

theorem Tally.trans (h : l.Tally l' entries requests n) (h' : l'.Tally l'' entries' requests' n') :
    l.Tally l'' (entries' ++ entries) (requests' ++ requests) (n + n') := by
  have hreports : Log.reportsIn (entries' ++ entries) =
      Log.reportsIn entries' ++ Log.reportsIn entries := List.filterMap_append
  have hcreated := h.created
  have hcreated' := h'.created
  have hreused := h.reused
  have hreused' := h'.reused
  constructor
  case entries_eq => rw [h'.entries_eq, h.entries_eq, List.append_assoc]
  case requests_eq => rw [h'.requests_eq, h.requests_eq, List.append_assoc]
  case created =>
    rw [hreports, Stats.total_append, List.countP_append]
    omega
  case reused =>
    rw [hreports, Stats.total_append]
    omega
  case lastReport =>
    rw [hreports, h'.lastReport, h.lastReport, List.head?_append]
    cases (Log.reportsIn entries').head? <;> rfl

/-- Without a report the counters alone change. -/
theorem Tally.of_no_report (hentries : l'.journal.entries = entries ++ l.journal.entries)
    (hnone : Log.reportsIn entries = [])
    (hrequests : l'.device.requests = requests ++ l.device.requests)
    (hcreated : l'.pool.created = l.pool.created + requests.countP Request.isServed)
    (hreused : l'.pool.reused = l.pool.reused + n)
    (hlast : l'.pool.lastReport = l.pool.lastReport) : l.Tally l' entries requests n := by
  refine ⟨hentries, hrequests, ?_, ?_, ?_⟩
  all_goals rw [hnone]
  · exact (Nat.zero_add _).trans hcreated
  · exact (Nat.zero_add _).trans hreused
  · exact hlast

/-- The books are kept from the one state to the other, with so many reuses; `panics` says whether
    a request in between panicked. -/
def Booked (l l' : Locked φ) (reuses : Nat) (panics : Bool) : Prop :=
  ∃ entries requests, l.Tally l' entries requests reuses ∧ requests.any Request.isPanic = panics

theorem Booked.trans (h : l.Booked l' n panics) (h' : l'.Booked l'' n' panics') :
    l.Booked l'' (n + n') (panics || panics') := by
  obtain ⟨entries, requests, h, rfl⟩ := h
  obtain ⟨entries', requests', h', rfl⟩ := h'
  refine ⟨_, _, h.trans h', ?_⟩
  rw [List.any_append, Bool.or_comm]

/-- What changes neither counters nor the log and asks for nothing has nothing to book. -/
theorem Booked.idle (hjournal : l'.journal = l.journal)
    (hrequests : l'.device.requests = l.device.requests)
    (hcreated : l'.pool.created = l.pool.created) (hreused : l'.pool.reused = l.pool.reused)
    (hlast : l'.pool.lastReport = l.pool.lastReport) : l.Booked l' 0 false :=
  ⟨[], [],
    .of_no_report (congrArg Log.Journal.entries hjournal) rfl hrequests hcreated hreused hlast, rfl⟩

theorem booked_log (l : Locked φ) {e : Log.Event} (he : ∀ stats, e ≠ .reported stats) :
    l.Booked (l.log e) 0 false :=
  ⟨[_], [], .of_no_report rfl (Log.reportsIn_of_ne he _) rfl rfl rfl rfl, rfl⟩

theorem booked_release (l : Locked φ) (x : Surface) : l.Booked (l.release x) 0 false :=
  .idle rfl rfl rfl rfl rfl

theorem booked_releaseAll (l : Locked φ) (xs : List Surface) :
    l.Booked (l.releaseAll xs) 0 false :=
  .idle rfl (l.device.requests_releaseAll xs).1 rfl rfl rfl

theorem booked_available (l : Locked φ) (available : List Surface) :
    l.Booked { l with pool := { l.pool with available } } 0 false :=
  .idle rfl rfl rfl rfl rfl

theorem booked_push (l : Locked φ) (x : Surface) : l.Booked (l.push x) 0 false :=
  l.booked_available _

theorem booked_report (l : Locked φ) : l.Booked l.report 0 false := by
  let stats := l.pool.stats l.device.usage
  let entry : Log.Entry :=
    ⟨.reported stats, l.journal.library.writes l.journal.installed Log.statsTarget .debug⟩
  exact ⟨[entry], [], ⟨rfl, rfl, rfl, rfl, rfl⟩, rfl⟩

theorem booked_countReused (l : Locked φ) : l.Booked l.countReused 1 false :=
  ⟨[], [], .of_no_report rfl rfl rfl rfl rfl rfl, rfl⟩

theorem booked_recycle (l : Locked φ) (x : Surface) : l.Booked (l.recycle x) 0 false := by
  unfold recycle
  split
  · dsimp only
    have hplaced : l.Booked (if l.pool.isFull then
        (l.log (.surplusDropped x.id l.pool.capacity)).release x else l.push x) 0 false := by
      split
      · exact (l.booked_log (by simp)).trans (booked_release _ x)
      · exact l.booked_push x
    exact hplaced.trans (booked_report _)
  · exact (l.booked_log (by simp)).trans (booked_release _ x)

theorem booked_withPending (l : Locked φ) (pending : Pending Surface) :
    l.Booked (l.withPending pending) 0 false :=
  .idle rfl rfl rfl rfl rfl

theorem booked_complete (l : Locked φ) (id : BufferId) : l.Booked (l.complete id) 0 false := by
  rw [complete_eq]
  split
  · exact l.booked_log (by simp)
  · exact (l.booked_withPending _).trans (booked_log _ (by simp))
  · exact (l.booked_withPending _).trans (booked_recycle _ _)

theorem booked_settle (l : Locked φ) (id : BufferId) (x : Surface) :
    l.Booked (l.settle id x) 0 false := by
  rw [settle_eq]
  split
  · exact l.booked_recycle x
  · exact l.booked_withPending _
  · exact (l.booked_withPending _).trans (booked_release _ _)

theorem booked_forget (l : Locked φ) (id : BufferId) : l.Booked (l.forget id) 0 false := by
  rw [forget_eq]
  split
  · exact .idle rfl rfl rfl rfl rfl
  · exact l.booked_withPending _
  · exact (l.booked_withPending _).trans (booked_release _ _)

theorem booked_evict (l : Locked φ) (maxAge : UInt32) : l.Booked (l.evict maxAge) 0 false := by
  unfold evict
  dsimp only
  split
  · exact (l.booked_available _).trans (booked_releaseAll _ _)
  · exact ((l.booked_available _).trans (booked_log _ (by simp))).trans (booked_releaseAll _ _)

variable [Allocator φ]

/-- A request is booked with what came of it. -/
theorem booked_create (l : Locked φ) (size : Size) :
    l.Booked (l.create size).2 0 (l.create size).1.isPanic := by
  obtain ⟨r, hr, hout⟩ := l.device.request_recorded size l.pool.nextId
  have book : ∀ (l' : Locked φ) (entries : List Log.Entry) (panics : Bool),
      l'.journal.entries = entries ++ l.journal.entries → Log.reportsIn entries = [] →
      l'.device.requests = r :: l.device.requests →
      l'.pool.created = l.pool.created + (if r.isServed then 1 else 0) →
      l'.pool.reused = l.pool.reused → l'.pool.lastReport = l.pool.lastReport →
      r.isPanic = panics → l.Booked l' 0 panics :=
    fun l' entries panics he hnone hr hc hu hl hp =>
      ⟨entries, [r], .of_no_report he hnone hr (by rw [List.countP_singleton, hc]) hu hl,
        by simp [hp]⟩
  rw [create_eq]
  split
  · rename_i heq
    rw [heq] at hout
    exact book _ [] _ rfl rfl hr (by rw [Request.isServed, hout]; rfl) rfl rfl
      (by rw [Request.isPanic, hout]; rfl)
  · rename_i heq
    rw [heq] at hout
    exact book _ [] _ rfl rfl hr (by rw [Request.isServed, hout]; rfl) rfl rfl
      (by rw [Request.isPanic, hout]; rfl)
  · rename_i x heq
    rw [heq, Device.Grant.outcome] at hout
    split
    · rename_i hv
      rw [if_pos hv] at hout
      exact book _ [_] _ rfl rfl hr (by rw [Request.isServed, hout]; rfl) rfl rfl
        (by rw [Request.isPanic, hout]; rfl)
    · rename_i hv
      rw [if_neg hv] at hout
      exact book _ [_] _ rfl rfl hr (by rw [Request.isServed, hout]; rfl) rfl rfl
        (by rw [Request.isPanic, hout]; rfl)

theorem booked_obtain (l : Locked φ) (size : Size) :
    l.Booked (l.obtain size).2 0 (l.obtain size).1.isPanic := by
  unfold obtain
  split
  · rename_i x l' h
    obtain ⟨-, rfl⟩ := take_eq_some h
    exact (l.booked_available _).trans (booked_log _ (by simp))
  · have hc := l.booked_create size
    cases hl : l.create size with
    | mk ending l' =>
      rw [hl] at hc
      cases ending <;> exact hc

theorem booked_replenish (l : Locked φ) (size : Size) (note : PoolError → Size → Log.Event)
    (hnote : ∀ error stats, note error size ≠ .reported stats) :
    l.Booked (l.replenish size note).2 0 (l.replenish size note).1.isPanic := by
  have hc := l.booked_create size
  rw [replenish_eq]
  split
  · rename_i heq
    rw [heq] at hc
    exact Booked.trans hc (booked_push _ _)
  · rename_i error heq
    rw [heq] at hc
    exact hc.trans (booked_log _ (hnote error))
  · rename_i heq
    rw [heq] at hc
    exact hc

theorem booked_replenishAll (l : Locked φ) (sizes : List Size) :
    l.Booked (l.replenishAll sizes).2 0 (l.replenishAll sizes).1.isPanic := by
  induction sizes generalizing l with
  | nil => exact .idle rfl rfl rfl rfl rfl
  | cons size sizes ih =>
    have hr := l.booked_replenish size .resizeFailed (by simp)
    rw [replenishAll_cons]
    split
    · rename_i hp
      rw [hp] at hr
      exact hr
    · rename_i hp
      rw [Bool.not_eq_true] at hp
      rw [hp] at hr
      simpa using hr.trans (ih _)

theorem booked_shrinkFirst (l : Locked φ) :
    l.Booked l.shrinkFirst.2 0 l.shrinkFirst.1.isPanic := by
  unfold shrinkFirst
  split
  · exact .idle rfl rfl rfl rfl rfl
  · rename_i x hx
    have hrest := l.booked_available (l.pool.available.eraseP Surface.shrinkable)
    have hnoted := hrest.trans (booked_log _ (e := .shrinking x.id x.size) (by simp))
    have hfreed := hnoted.trans (booked_release _ x)
    simpa using hfreed.trans (booked_replenish _ x.size .shrinkFailed (by simp))

omit [Allocator φ] in
/-- A panic cuts the report off, and what was counted until then stays. -/
theorem booked_closing {α : Type} {l : Locked φ} {r : Ending α × Locked φ}
    (h : l.Booked r.2 0 r.1.isPanic) :
    l.Booked (if r.1.isPanic then r.2 else r.2.report) 0 r.1.isPanic := by
  split
  · exact h
  · simpa using h.trans (booked_report r.2)

theorem booked_collect (l : Locked φ) (maxAge : UInt32) :
    l.Booked (l.collect maxAge).2 0 (l.collect maxAge).1.isPanic := by
  rw [collect_eq]
  refine booked_closing ?_
  simpa using (l.booked_evict maxAge).trans (booked_shrinkFirst _)

theorem booked_shrink (l : Locked φ) : l.Booked l.shrink.2 0 l.shrink.1.isPanic := by
  have hfreed : l.Booked l.withoutLarge 0 false :=
    .idle rfl (l.device.requests_releaseAll _).1 rfl rfl rfl
  rw [shrink_eq]
  refine booked_closing ?_
  simpa using hfreed.trans (booked_replenishAll _ l.largeSizes)

end Locked

end SurfaceReuse
