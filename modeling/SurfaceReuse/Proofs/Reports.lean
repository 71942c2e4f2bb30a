import SurfaceReuse.Proofs.ReuseShare

set_option autoImplicit false

/-!
Reports at the end of a wait. When the wait of a surface is over, the surface becomes idle or goes
down, and the pool reports what it is left with. It does so for valid surfaces alone: an invalid
one goes down without a report, and the last report goes on counting it among those that wait.
-/

namespace SurfaceReuse

variable {φ : Type}

namespace Locked

theorem recycle_described (l : Locked φ) {x : Surface} (hv : x.valid = true) :
    (l.recycle x).pool.Described := by
  unfold recycle
  rw [if_pos hv]
  exact report_described _

theorem recycle_invalid (l : Locked φ) {x : Surface} (hv : x.valid = false) :
    (l.recycle x).pool = l.pool := by
  unfold recycle
  rw [if_neg (by simp [hv])]
  rfl

/-- A valid surface is taken back with one report, and an invalid one without any. -/
theorem recycle_reports (l : Locked φ) (x : Surface) :
    ∃ new, (l.recycle x).journal.entries = new ++ l.journal.entries ∧
      Log.reportsIn new = if x.valid then [(l.recycle x).pool.lastReport] else [] := by
  unfold recycle
  cases x.valid with
  | false => exact ⟨[_], rfl, rfl⟩
  | true =>
    cases l.pool.isFull with
    | false => exact ⟨[_], rfl, rfl⟩
    | true => exact ⟨[_, _], rfl, rfl⟩

end Locked

namespace System

variable {s : System φ} {o : OpenPool} [Allocator φ]

/-- The last report agrees with what the pool answers when it is asked, and a report made now would
    count nothing. -/
def UpToDate (s : System φ) : Prop :=
  ∃ last next : Stats,
    (s.step .lastReport).1 = .stats last ∧
    (s.step .availableCount).1 = .count last.cachedCount ∧
    (s.step .cachedBytes).1 = .bytes last.cachedBytes ∧
    (s.step .pendingCount).1 = .count last.pendingCount ∧
    (s.step .report).1 = .stats next ∧ next.isIdle = true

theorem upToDate_iff (ho : s.current = some o) (hp : o.poisoned = false) :
    s.UpToDate ↔ o.pool.Described := by
  have hask : ∀ look : Pool → Reply, s.inspect look = look o.pool := by
    intro look
    rw [inspect_eq ho, hp]
    rfl
  have hlast : (s.step .lastReport).1 = .stats o.pool.lastReport :=
    hask fun p => .stats p.lastReport
  have hcount : (s.step .availableCount).1 = .count o.pool.available.length :=
    hask fun p => .count p.available.length
  have hbytes : (s.step .cachedBytes).1 = .bytes o.pool.cachedBytes :=
    hask fun p => .bytes p.cachedBytes
  have hpending : (s.step .pendingCount).1 = .count o.pool.pending.size :=
    hask fun p => .count p.pending.size
  have hnext : (s.step .report).1 = .stats (o.pool.stats s.device.usage) :=
    congrArg Prod.fst (report_open ho hp)
  have hidle : (o.pool.stats s.device.usage).isIdle = true ↔
      o.pool.created = 0 ∧ o.pool.reused = 0 := by
    simp [Stats.isIdle, Pool.stats]
  unfold UpToDate
  rw [hlast, hcount, hbytes, hpending, hnext]
  constructor
  · rintro ⟨last, next, he, hc, hb, hw, he', hnone⟩
    obtain rfl := Reply.stats.inj he
    obtain rfl := Reply.stats.inj he'
    obtain ⟨hcreated, hreused⟩ := hidle.mp hnone
    exact ⟨(Reply.count.inj hc).symm, (Reply.bytes.inj hb).symm, (Reply.count.inj hw).symm,
      hcreated, hreused⟩
  · intro h
    refine ⟨_, _, rfl, ?_, ?_, ?_, rfl, hidle.mpr ⟨h.created, h.reused⟩⟩
    · rw [h.cachedCount]
    · rw [h.cachedBytes]
    · rw [h.pendingCount]

end System

/-- When the wait of a surface ends, a report is made exactly if the surface is valid, and then the
    last report says how the pool stands, whether the surface became idle or went down for want of
    room. An invalid surface goes down and nothing but its slot goes with it: the last report is the
    one from before. It is up to date only if that one would have been without the slot. -/
theorem completion_reported_iff_valid [Allocator φ] {law : List (Moment φ) → Moment φ → Prop}
    {past : List (Moment φ)} {s : System φ} (life : Life law past s) {m : Move φ} {x : Surface}
    (ends : s.Recycles m x) :
    ∃ (o o' : OpenPool) (id : BufferId),
      s.current = some o ∧ (s.step m).2.current = some o' ∧ o'.poisoned = false ∧
      o'.pool.pending = o.pool.pending.erase id ∧
      (x.valid = true ∧ (s.step m).2.available = s.available ++ [x] ∨
        (s.step m).2.available = s.available ∧ x.serial ∉ (s.step m).2.device.alive) ∧
      (s.moment m).reports = (if x.valid then [o'.pool.lastReport] else []) ∧
      ((s.step m).2.UpToDate ↔
        x.valid = true ∨ { o.pool with pending := o.pool.pending.erase id }.Described) ∧
      (x.valid = false →
        ((s.step m).2.step .lastReport).1 = .stats ((reports past).getLast?.getD {})) := by
  obtain ⟨o, ho, hp, -⟩ := id ends
  obtain ⟨t, id, he⟩ := ends.step_eq life.sound.numbered ho
  let l := (s.inside o).withPending (o.pool.pending.erase id)
  let o' : OpenPool := { o with pool := (l.recycle x).pool }
  have ho' : (s.step m).2.current = some o' := congrArg System.current he
  have hfate := ends.outcome life.sound ho
  refine ⟨o, o', id, ho, ho', hp, l.recycle_pending x, ?_, ?_, ?_, fun hv => ?_⟩
  · rcases hfate with ⟨hv, -, ha⟩ | ⟨-, ha, hgone⟩
    · exact .inl ⟨hv, ha⟩
    · exact .inr ⟨ha, hgone⟩
  · obtain ⟨new, hnew, hreports⟩ := l.recycle_reports x
    have hentries : (s.moment m).after.journal.entries = new ++ s.journal.entries :=
      (congrArg (fun u : System φ => u.journal.entries) he).trans hnew
    rw [Moment.reports_eq hentries, hreports]
    split <;> rfl
  · rw [System.upToDate_iff ho' hp]
    cases hv : x.valid with
    | true => exact iff_of_true (l.recycle_described hv) (.inl rfl)
    | false =>
      change (l.recycle x).pool.Described ↔ _
      rw [l.recycle_invalid hv]
      simp [l, Locked.withPending, System.inside]
  · obtain ⟨o₁, ho₁, books⟩ := life.exact
    obtain rfl : o = o₁ := Option.some.inj (ho.symm.trans ho₁)
    have hsame : (l.recycle x).pool.lastReport = o.pool.lastReport := by
      rw [l.recycle_invalid hv]
      rfl
    change (s.step m).2.inspect (fun p => .stats p.lastReport) = _
    rw [System.inspect_eq ho', ← books.lastReport, ← hsame]
    exact if_neg (by simp [o', hp])

open Scenario in
/-- The hook is called before the surface is parked, and there is no room for a second idle surface:
    it goes down, and the report says that one is idle and none waits. -/
theorem completion_reported_iff_valid_of_surplus :
    ∃ (past : List (Moment Faults)) (s : System Faults) (x : Surface),
      Life (fun _ _ => True) past s ∧ x.serial = 2 ∧ s.Recycles .registered x ∧
      x.valid = true ∧ (s.step .registered).2.UpToDate ∧
      (s.step .registered).2.available.map Surface.serial = [1] ∧
      (s.step .registered).2.device.alive = [1] ∧
      (s.moment .registered).reports.map (fun r => (r.cachedCount, r.pendingCount)) = [(1, 0)] := by
  have opened : Life (fun _ _ => True) _ _ :=
    .opened (some { maxSurfaces := 1 }) (.start ({} : Faults) {} {}) rfl
  have first := (opened.move (.acquire ⟨8, 8⟩) rfl trivial).move (.flushed true) rfl trivial
  have both := (first.move (.acquire ⟨8, 8⟩) rfl trivial).move (.flushed true) rfl trivial
  have one := (both.move (.submit 1) rfl trivial).move .registered rfl trivial
  have full := (one.move (.fire 1) rfl trivial).move (.submit 2) rfl trivial
  have life := full.move (.fire 2) rfl trivial
  let last : Surface := ⟨{ id := ⟨2⟩, size := ⟨8, 8⟩ }, 2⟩
  refine ⟨_, _, last, life, rfl, ?ends, rfl, ?_, rfl, rfl, by decide⟩
  · exact ⟨_, rfl, rfl, .inr ⟨⟨2⟩, 2, [], rfl, rfl, rfl⟩⟩
  · obtain ⟨o, o', id, -, -, -, -, -, -, hcurrent, -⟩ := completion_reported_iff_valid life ?ends
    exact hcurrent.mpr (.inl rfl)

open Scenario in
/-- A surface that waits was reported, and then it becomes invalid. Its wait ends and nothing waits
    any more, but the last report still counts it. -/
theorem last_report_outdated_by_invalid :
    ∃ (past : List (Moment Faults)) (s : System Faults) (x : Surface) (r : Stats),
      Life (fun _ _ => True) past s ∧ s.Recycles (.fire 1) x ∧
      let u := (s.step (.fire 1)).2
      u.device.alive = [] ∧ (u.step .lastReport).1 = .stats r ∧ r.pendingCount = 1 ∧
        (u.step .pendingCount).1 = .count 0 ∧ ¬u.UpToDate := by
  have opened : Life (fun _ _ => True) _ _ := .opened none (.start ({} : Faults) {} {}) rfl
  have held := (opened.move (.acquire ⟨8, 8⟩) rfl trivial).move (.flushed true) rfl trivial
  have waits := (held.move (.submit 1) rfl trivial).move .registered rfl trivial
  have seen := waits.move .report rfl trivial
  have life := seen.move (.touch 1 fun f => { f with valid := false }) rfl trivial
  let spoilt : Surface := ⟨{ id := ⟨1⟩, size := ⟨8, 8⟩, valid := false }, 1⟩
  refine ⟨_, _, spoilt, _, life, ⟨_, rfl, rfl, .inl ⟨⟨1, 1, ⟨1⟩⟩, by decide, rfl, rfl, rfl⟩⟩,
    rfl, rfl, rfl, rfl, ?_⟩
  rw [System.upToDate_iff rfl rfl]
  intro h
  exact absurd h.pendingCount (by decide)

end SurfaceReuse
