import SurfaceReuse.Proofs.Ownership
import SurfaceReuse.Scenario.Faults

set_option autoImplicit false

/-!
A completion that comes before its surface is parked, and one that comes after. The pool finds the
surface in another place each time, but in the end it did the same with it.
-/

namespace SurfaceReuse

variable {φ : Type}

/-- What the pool asks of a surface when it takes it back is answered as before. -/
structure Features.SameAnswers (change : Features → Features) : Prop where
  id : ∀ f : Features, (change f).id = f.id
  size : ∀ f : Features, (change f).size = f.size
  valid : ∀ f : Features, (change f).valid = f.valid
  footprint : ∀ f : Features, (change f).footprint = f.footprint

/-- The same, for surfaces. -/
structure Surface.Alike (f : Surface → Surface) : Prop where
  serial : ∀ x, (f x).serial = x.serial
  id : ∀ x, (f x).id = x.id
  valid : ∀ x, (f x).valid = x.valid
  footprint : ∀ x, (f x).footprint = x.footprint

theorem Surface.hasSerial_comp_touch (n serial : Nat) (change : Features → Features) :
    (fun y : Surface => y.serial == n) ∘ touch serial change = fun y => y.serial == n :=
  funext fun y => congrArg (· == n) (touch_serial serial change y)

theorem Features.SameAnswers.alike {change : Features → Features} (h : SameAnswers change)
    (serial : Nat) : Surface.Alike (Surface.touch serial change) := by
  refine ⟨Surface.touch_serial serial change, fun x => ?_, fun x => ?_, fun x => ?_⟩
  all_goals
    unfold Surface.touch
    split
  · exact h.id x.toFeatures
  · rfl
  · exact h.valid x.toFeatures
  · rfl
  · exact h.footprint x.toFeatures
  · rfl

namespace Locked

theorem recycle_journal (l : Locked φ) (x : Surface) (journal : Log.Journal) :
    ({ l with journal }.recycle x).pool = (l.recycle x).pool ∧
      ({ l with journal }.recycle x).device = (l.recycle x).device := by
  unfold recycle
  cases x.valid with
  | false => exact ⟨rfl, rfl⟩
  | true =>
    cases hf : l.pool.isFull with
    | false => exact ⟨rfl, rfl⟩
    | true => exact ⟨rfl, rfl⟩

def mapSurfaces (l : Locked φ) (f : Surface → Surface) : Locked φ :=
  { l with pool := l.pool.mapSurfaces f }

variable {f : Surface → Surface}

theorem stats_map (hf : Surface.Alike f) (p : Pool) (usage : CacheUsage) :
    (p.mapSurfaces f).stats usage = p.stats usage := by
  have hbytes : (p.mapSurfaces f).cachedBytes = p.cachedBytes := by
    change Surface.totalFootprint (p.available.map f) = Surface.totalFootprint p.available
    unfold Surface.totalFootprint
    rw [List.foldl_map]
    simp only [hf.footprint]
  unfold Pool.stats
  rw [hbytes]
  simp [Pool.mapSurfaces, Pending.map, Pending.mapSlots, Pending.size]

theorem report_map (hf : Surface.Alike f) (l : Locked φ) :
    (l.mapSurfaces f).report = l.report.mapSurfaces f := by
  have hstats : (l.mapSurfaces f).pool.stats (l.mapSurfaces f).device.usage =
      l.pool.stats l.device.usage := stats_map hf l.pool l.device.usage
  unfold report
  rw [hstats]
  rfl

theorem recycle_map (hf : Surface.Alike f) (l : Locked φ) (x : Surface) :
    (l.mapSurfaces f).recycle (f x) = (l.recycle x).mapSurfaces f := by
  have hfull : (l.mapSurfaces f).pool.isFull = l.pool.isFull := by
    simp [Pool.isFull, mapSurfaces, Pool.mapSurfaces]
  have hrelease : ∀ l : Locked φ,
      (l.mapSurfaces f).release (f x) = (l.release x).mapSurfaces f := by
    intro l
    unfold release Device.release
    rw [hf.serial]
    rfl
  unfold recycle
  rw [hfull, hf.valid, hf.id]
  cases x.valid with
  | false => exact hrelease (l.log (.invalidDropped x.id))
  | true =>
    cases l.pool.isFull with
    | true =>
      have hdrop := hrelease (l.log (.surplusDropped x.id l.pool.capacity))
      exact (congrArg report hdrop).trans (report_map hf _)
    | false =>
      have hpush : (l.mapSurfaces f).push (f x) = (l.push x).mapSurfaces f := by
        simp [push, Pool.push, mapSurfaces, Pool.mapSurfaces]
      exact (congrArg report hpush).trans (report_map hf _)

end Locked

namespace System

variable {s : System φ} {o : OpenPool} {x : Surface}

/-- The process in which the pool took the surface back at once, with that log so far. -/
def returned (s : System φ) (o : OpenPool) (x : Surface) (journal : Log.Journal) : System φ :=
  let s : System φ :=
    { s with
      held := s.held.eraseP fun y => y.serial == x.serial
      journal
      registrations := s.registrations + 1 }
  s.leave o ((s.inside o).recycle x)

theorem returned_journal (s : System φ) (o : OpenPool) (x : Surface) (j k : Log.Journal) :
    s.returned o x j = { s.returned o x k with journal := (s.returned o x j).journal } := by
  obtain ⟨hpool, hdevice⟩ := (⟨o.pool, s.device, k⟩ : Locked φ).recycle_journal x j
  unfold returned leave inside
  dsimp only
  rw [← hpool, ← hdevice]

theorem returned_touch {serial : Nat} {change : Features → Features}
    (same : Features.SameAnswers change) (s : System φ) (o : OpenPool) (x : Surface)
    (journal : Log.Journal) :
    (s.touch serial change).returned
        { o with pool := o.pool.mapSurfaces (Surface.touch serial change) }
        (x.touch serial change) journal =
      (s.returned o x journal).touch serial change := by
  have hheld : (s.held.map (Surface.touch serial change)).eraseP
        (fun y => y.serial == (x.touch serial change).serial) =
      (s.held.eraseP fun y => y.serial == x.serial).map (Surface.touch serial change) := by
    rw [List.eraseP_map, Surface.touch_serial, Surface.hasSerial_comp_touch]
  have hrecycle := Locked.recycle_map (same.alike serial) ⟨o.pool, s.device, journal⟩ x
  unfold returned leave inside
  dsimp only
  change System.mk _ _ _ ((s.held.map _).eraseP _) _ _ _ _ = _
  rw [hheld]
  change System.mk
    (some ⟨_, _, ((Locked.mapSurfaces ⟨o.pool, s.device, journal⟩ _).recycle _).pool, _⟩)
    ((Locked.mapSurfaces ⟨o.pool, s.device, journal⟩ _).recycle _).device
    ((Locked.mapSurfaces ⟨o.pool, s.device, journal⟩ _).recycle _).journal _ _ _ _ _ = _
  rw [hrecycle]
  rfl

theorem submit_free (ho : s.current = some o) (hp : o.poisoned = false) {serial : Nat}
    (hx : s.held.find? (fun y => y.serial == serial) = some x)
    (hfree : o.pool.pending.contains x.id = false) :
    s.submit serial = (.entered,
      System.registering { s with held := s.held.eraseP fun y => y.serial == x.serial } o x) := by
  have ht : s.takeHeld? serial =
      some (x, { s with held := s.held.eraseP fun y => y.serial == serial }) := by
    unfold takeHeld?
    rw [hx]
    rfl
  have hserial : x.serial = serial := by simpa using List.find?_some hx
  rw [hserial]
  rcases s.submit_cases serial with ⟨hn | hn, -⟩ | ⟨o', x', t, ho', ht', hcases⟩
  · exact absurd (ho.symm.trans hn) nofun
  · exact absurd (ht.symm.trans hn) nofun
  · obtain rfl := Option.some.inj (ho.symm.trans ho')
    obtain ⟨rfl, rfl⟩ := Prod.mk.inj (Option.some.inj (ht.symm.trans ht'))
    rcases hcases with ⟨hp', -⟩ | ⟨-, hc, -⟩ | ⟨-, -, h⟩
    · exact absurd (hp.symm.trans hp') nofun
    · exact absurd (hfree.symm.trans hc) nofun
    · exact h

theorem fire_head (ho : s.current = some o) (hp : o.poisoned = false) {h : Hook} {hooks : List Hook}
    (hh : s.hooks = h :: hooks) (hg : h.generation = o.generation) :
    s.fire h.number = (.done,
      ({ s with hooks } : System φ).leave o ((s.inside o).complete h.id)) := by
  have hd := deliver_open (s := { s with hooks }) ho hp hg
  unfold fire
  rw [hh, List.find?_cons_of_pos (by simp)]
  dsimp only
  rw [List.erase_cons_head, hd]
  rfl

variable [Allocator φ] {serial : Nat}

/-- The replies to moves that are made one after the other. -/
def replies (s : System φ) : List (Move φ) → List Reply
  | [] => []
  | m :: moves => (s.step m).1 :: (s.step m).2.replies moves

theorem run_cons {m : Move φ} {moves : List (Move φ)} {r : Reply} {t : System φ}
    (h : s.step m = (r, t)) :
    s.replies (m :: moves) = r :: t.replies moves ∧ s.run (m :: moves) = t.run moves := by
  refine ⟨?_, ?_⟩
  · rw [replies, h]
  · change (s.step m).2.run moves = _
    rw [h]

theorem run_early (ho : s.current = some o) (hp : o.poisoned = false)
    (hx : s.held.find? (fun y => y.serial == serial) = some x)
    (hfree : o.pool.pending.contains x.id = false) :
    s.replies [.submit serial, .fire (s.registrations + 1), .registered] =
        [.entered, .done, .done] ∧
      ∃ journal, s.run [.submit serial, .fire (s.registrations + 1), .registered] =
        s.returned o x journal := by
  let rest : System φ := { s with held := s.held.eraseP fun y => y.serial == x.serial }
  let t : System φ := rest.registering o x
  let taken : OpenPool :=
    { o with pool := { o.pool with pending := (o.pool.pending.reserve x.id).2 } }
  have hsubmit : s.step (.submit serial) = (.entered, t) := submit_free ho hp hx hfree
  have hslot := Pending.get?_reserve_self hfree
  -- The hook takes the reservation away, so the pool is as before the submission.
  have hcomplete : (t.inside taken).complete x.id = (s.inside o).log (.completionEarly x.id) := by
    rw [Locked.complete_of_reserved hslot]
    change ((t.inside taken).withPending ((o.pool.pending.reserve x.id).2.erase x.id)).log _ = _
    rw [Pending.erase_reserve hfree]
    rfl
  let u : System φ := ({ t with hooks := s.hooks } : System φ).leave o
    ((s.inside o).log (.completionEarly x.id))
  have hfire : t.step (.fire (s.registrations + 1)) = (.done, u) := by
    have hhooks : t.hooks = ⟨s.registrations + 1, o.generation, x.id⟩ :: s.hooks := rfl
    have h := fire_head (o := taken) rfl hp hhooks rfl
    rw [hcomplete] at h
    exact h
  have hsettle : (u.inside o).settle x.id x = (u.inside o).recycle x :=
    Locked.settle_of_none (Pending.get?_of_not_contains hfree) x
  have hregistered : u.step .registered =
      (.done, s.returned o x (s.journal.emit (.completionEarly x.id))) := by
    have hcalls : u.calls = .registering x x.id (s.registrations + 1) :: s.calls := rfl
    have h := registered_open (o := o) rfl hp hcalls
    rw [hsettle] at h
    exact h
  obtain ⟨r₁, e₁⟩ := run_cons hsubmit
  obtain ⟨r₂, e₂⟩ := run_cons hfire
  obtain ⟨r₃, e₃⟩ := run_cons hregistered
  exact ⟨by rw [r₁, r₂, r₃]; rfl, _, by rw [e₁, e₂, e₃]; rfl⟩

theorem run_late (ho : s.current = some o) (hp : o.poisoned = false)
    (hx : s.held.find? (fun y => y.serial == serial) = some x)
    (hfree : o.pool.pending.contains x.id = false) :
    s.replies [.submit serial, .registered, .fire (s.registrations + 1)] =
        [.entered, .done, .done] ∧
      s.run [.submit serial, .registered, .fire (s.registrations + 1)] =
        s.returned o x s.journal := by
  let rest : System φ := { s with held := s.held.eraseP fun y => y.serial == x.serial }
  let t : System φ := rest.registering o x
  let taken : OpenPool :=
    { o with pool := { o.pool with pending := (o.pool.pending.reserve x.id).2 } }
  have hsubmit : s.step (.submit serial) = (.entered, t) := submit_free ho hp hx hfree
  have hslot := Pending.get?_reserve_self hfree
  let waiting : OpenPool :=
    { o with pool := { o.pool with pending := ((o.pool.pending.reserve x.id).2.park x.id x).2 } }
  let u : System φ := { t with calls := s.calls, current := some waiting }
  have hregistered : t.step .registered = (.done, u) := by
    have hcalls : t.calls = .registering x x.id (s.registrations + 1) :: s.calls := rfl
    have h := registered_open (o := taken) rfl hp hcalls
    rw [Locked.settle_of_reserved hslot] at h
    exact h
  have hparked : ((o.pool.pending.reserve x.id).2.park x.id x).2.get? x.id = some (.parked x) := by
    rw [Pending.get?_park, if_pos rfl, hslot]
    rfl
  -- The slot goes with the hook, and the surface is taken back by the pool of before.
  have hcomplete : (u.inside waiting).complete x.id = (s.inside o).recycle x := by
    rw [Locked.complete_of_parked hparked]
    change ((u.inside waiting).withPending
      (((o.pool.pending.reserve x.id).2.park x.id x).2.erase x.id)).recycle x = _
    rw [Pending.erase_park, Pending.erase_reserve hfree]
    rfl
  have hfire : u.step (.fire (s.registrations + 1)) = (.done, s.returned o x s.journal) := by
    have hhooks : u.hooks = ⟨s.registrations + 1, o.generation, x.id⟩ :: s.hooks := rfl
    have h := fire_head (o := waiting) rfl hp hhooks rfl
    rw [hcomplete] at h
    exact h
  obtain ⟨r₁, e₁⟩ := run_cons hsubmit
  obtain ⟨r₂, e₂⟩ := run_cons hregistered
  obtain ⟨r₃, e₃⟩ := run_cons hfire
  exact ⟨by rw [r₁, r₂, r₃]; rfl, by rw [e₁, e₂, e₃]; rfl⟩

end System

/-- For an unpoisoned pool and a surface whose id is not tracked it makes no difference whether the
    hook is called while the surface still takes it or after it was parked: both submissions
    succeed, and but for the log the same state is reached. Nor does it matter what else about the
    surface changes, if it answers the same to what the pool asks. -/
theorem early_completion_same_as_late [Allocator φ] {s : System φ} {o : OpenPool} {x : Surface}
    {serial : Nat} {change : Features → Features} (ho : s.current = some o)
    (hp : o.poisoned = false) (hx : s.held.find? (fun y => y.serial == serial) = some x)
    (hfree : o.pool.pending.contains x.id = false) (same : Features.SameAnswers change) :
    let early : List (Move φ) := [.submit serial, .fire (s.registrations + 1), .registered]
    let late : List (Move φ) := [.submit serial, .registered, .fire (s.registrations + 1)]
    s.replies early = [.entered, .done, .done] ∧ s.replies late = [.entered, .done, .done] ∧
      s.run late = { s.run early with journal := (s.run late).journal } ∧
      (s.touch serial change).replies late = [.entered, .done, .done] ∧
      (s.touch serial change).run late = (s.run late).touch serial change := by
  intro early late
  obtain ⟨hearly, journal, hrun⟩ := System.run_early ho hp hx hfree
  obtain ⟨hlate, hrun'⟩ := System.run_late ho hp hx hfree
  let o' : OpenPool := { o with pool := o.pool.mapSurfaces (Surface.touch serial change) }
  have ho' : (s.touch serial change).current = some o' := by
    unfold System.touch
    rw [ho]
    rfl
  have hx' : (s.touch serial change).held.find? (fun y => y.serial == serial) =
      some (x.touch serial change) := by
    change (s.held.map _).find? _ = _
    rw [List.find?_map, Surface.hasSerial_comp_touch, hx]
    rfl
  have hfree' : o'.pool.pending.contains (x.touch serial change).id = false := by
    rw [(same.alike serial).id]
    exact (o.pool.pending.contains_map _ _).trans hfree
  obtain ⟨hother, hrun''⟩ := System.run_late ho' hp hx' hfree'
  refine ⟨hearly, hlate, ?_, hother, ?_⟩
  · rw [hrun, hrun']
    exact s.returned_journal o x _ _
  · rw [hrun']
    exact hrun''.trans (System.returned_touch same s o x s.journal)

open Scenario in
/-- Beside a full set the surface goes down both times, and it does not matter that it got older. -/
theorem early_completion_same_as_late_when_full :
    ∃ (s : System Faults) (o : OpenPool) (x : Surface), s.current = some o ∧ o.poisoned = false ∧
      s.held.find? (fun y => y.serial == 2) = some x ∧ o.pool.pending.contains x.id = false ∧
      Features.SameAnswers Features.older ∧
      let early : List (Move Faults) := [.submit 2, .fire (s.registrations + 1), .registered]
      let late : List (Move Faults) := [.submit 2, .registered, .fire (s.registrations + 1)]
      (s.run late).device.alive = [1] ∧
        s.run late = { s.run early with journal := (s.run late).journal } ∧
        (s.touch 2 Features.older).run late = (s.run late).touch 2 Features.older := by
  have same : Features.SameAnswers Features.older :=
    ⟨fun _ => rfl, fun _ => rfl, fun _ => rfl, fun _ => rfl⟩
  obtain ⟨s, o, x, ho, hp, hx, hfree, halive⟩ : ∃ (s : System Faults) (o : OpenPool) (x : Surface),
      s.current = some o ∧ o.poisoned = false ∧
      s.held.find? (fun y => y.serial == 2) = some x ∧ o.pool.pending.contains x.id = false ∧
      (s.run [.submit 2, .registered, .fire (s.registrations + 1)]).device.alive = [1] :=
    ⟨({ device := { allocator := {} } } : System Faults).run
      [.openPool (some { maxSurfaces := 1 }), .acquire ⟨8, 8⟩, .flushed true, .acquire ⟨8, 8⟩,
        .flushed true, .submit 1, .registered, .fire 1], _, _, rfl, rfl, rfl, rfl, rfl⟩
  obtain ⟨-, -, hrun, -, hother⟩ := early_completion_same_as_late ho hp hx hfree same
  exact ⟨s, o, x, ho, hp, hx, hfree, same, halive, hrun, hother⟩

end SurfaceReuse
