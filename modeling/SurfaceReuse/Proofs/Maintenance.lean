import SurfaceReuse.Proofs.Idle
import SurfaceReuse.Proofs.Ownership
import SurfaceReuse.Proofs.Requests
import SurfaceReuse.Scenario.Faults

set_option autoImplicit false

/-!
Maintenance of the idle surfaces. Some of them go, then new ones are asked for in their place, then
the period is closed with a report. A maintenance tick asks for at most one.
-/

namespace SurfaceReuse

namespace Surface

/-- The surface after one more tick. Its age counts up to the largest number there is. -/
def aged (x : Surface) : Surface :=
  { x with age := .ofNat (min (x.age.toNat + 1) (UInt32.size - 1)) }

/-- Whether the surface can be used and is not too old after one more tick. -/
def lasts (maxAge : UInt32) (x : Surface) : Bool :=
  x.valid && decide (x.aged.age < maxAge)

theorem older_eq (x : Surface) : x.withFeatures x.older = x.aged := by
  have hage : x.older.age = .ofNat (min (x.age.toNat + 1) (UInt32.size - 1)) := by
    have hlt := x.age.toNat_lt
    rw [← UInt32.toNat_inj, Features.older_age, UInt32.toNat_ofNat']
    change _ = min (x.age.toNat + 1) 4294967295 % 4294967296
    split <;> omega
  unfold aged
  rw [← hage]
  rfl

theorem tick?_eq (maxAge : UInt32) (x : Surface) :
    x.tick? maxAge = if x.lasts maxAge then some x.aged else none := by
  unfold lasts
  rw [← older_eq]
  rfl

theorem ticked_eq (maxAge : UInt32) (xs : List Surface) :
    xs.filterMap (tick? maxAge) = (xs.filter (lasts maxAge)).map aged := by
  induction xs with
  | nil => rfl
  | cons x xs ih =>
    cases h : x.lasts maxAge with
    | false =>
      have hnone : x.tick? maxAge = none := by rw [tick?_eq, h]; rfl
      rw [List.filterMap_cons_none hnone, List.filter_cons_of_neg (by simp [h]), ih]
    | true =>
      have hsome : x.tick? maxAge = some x.aged := by rw [tick?_eq, h]; rfl
      rw [List.filterMap_cons_some hsome, List.filter_cons_of_pos h, ih, List.map_cons]

theorem not_shrinkable {x : Surface} (h : x.oversized = true → x.stable = false) :
    x.shrinkable = false := by
  unfold shrinkable
  cases hlarge : x.oversized with
  | false => rfl
  | true => exact h hlarge

theorem tick?_isNone (maxAge : UInt32) (x : Surface) :
    (x.tick? maxAge).isNone = !x.lasts maxAge := by
  rw [tick?_eq]
  cases x.lasts maxAge <;> rfl

end Surface

variable {φ : Type}

namespace Device

/-- The device when some surfaces are gone. -/
def without (d : Device φ) (gone : List Surface) : Device φ :=
  { d with alive := d.alive.filter fun n => !(gone.map Surface.serial).contains n }

theorem mem_without (d : Device φ) (gone : List Surface) (n : Nat) :
    n ∈ (d.without gone).alive ↔ n ∈ d.alive ∧ n ∉ gone.map Surface.serial := by
  unfold without
  rw [List.mem_filter, Bool.not_eq_true', List.contains_eq_mem, decide_eq_false_iff_not]

theorem releaseAll_without {d : Device φ} (h : d.alive.Nodup) (gone : List Surface) :
    d.releaseAll gone = d.without gone := by
  induction gone generalizing d with
  | nil =>
    unfold without
    simp [releaseAll]
  | cons x gone ih =>
    have halive : (d.alive.erase x.serial).filter (fun n => !(gone.map Surface.serial).contains n) =
        d.alive.filter fun n => !((x :: gone).map Surface.serial).contains n := by
      rw [h.erase_eq_filter, List.filter_filter]
      refine List.filter_congr fun n _ => ?_
      rw [List.map_cons, List.contains_cons, Bool.not_or, Bool.and_comm]
      rfl
    have hrest : (d.release x).releaseAll gone = (d.release x).without gone := ih (h.erase _)
    change (d.release x).releaseAll gone = _
    rw [hrest]
    exact congrArg (fun alive => { d with alive }) halive

theorem without_release {d : Device φ} (h : d.alive.Nodup) (gone : List Surface) (x : Surface) :
    (d.without gone).release x = d.without (gone ++ [x]) := by
  have happend : d.releaseAll (gone ++ [x]) = (d.releaseAll gone).release x := List.foldl_append
  rw [← releaseAll_without h, ← releaseAll_without h, happend]

end Device

variable [Allocator φ]

namespace Locked

variable {l : Locked φ}

theorem shrinkFirst_none (h : ∀ x ∈ l.pool.available, x.shrinkable = false) :
    l.shrinkFirst = (.ok (), l) := by
  unfold shrinkFirst
  rw [List.find?_eq_none.mpr fun x hx => by simp [h x hx]]

theorem shrinkFirst_first {front back : List Surface} {x : Surface}
    (h : l.pool.available = front ++ x :: back) (hx : x.shrinkable = true)
    (hfront : ∀ y ∈ front, y.shrinkable = false) :
    l.shrinkFirst.2.device = (l.device.release x).answered x.size l.pool.nextId ∧
    l.shrinkFirst.2.pool = ({ l.pool with available := front ++ back } : Pool).replenished 1
      ((l.device.release x).given x.size l.pool.nextId) ∧
    ((Allocator.answer l.device.allocator x.size l.pool.nextId).1 ≠ .panicked →
      l.shrinkFirst.1 = .ok ()) := by
  obtain ⟨hfind, herase⟩ := first_eq hx hfront back
  let freed : Locked φ :=
    ({ l with pool := { l.pool with available := front ++ back } }.log
      (.shrinking x.id x.size)).release x
  have hfreed : l.shrinkFirst = freed.replenish x.size .shrinkFailed := by
    unfold shrinkFirst
    rw [h, hfind, herase]
  rw [hfreed]
  obtain ⟨hdevice, hpool⟩ := freed.replenish_exact x.size .shrinkFailed
  exact ⟨hdevice, hpool, fun calm => replenish_calm (l := freed) calm .shrinkFailed⟩

theorem collect_calm {maxAge : UInt32} (h : (l.evict maxAge).shrinkFirst.1 = .ok ()) :
    l.collect maxAge = (.ok (), (l.evict maxAge).shrinkFirst.2.report) := by
  rw [collect_eq, h]
  rfl

section Tick

variable (h : l.device.alive.Nodup) (maxAge : UInt32)

include h

omit [Allocator φ] in
theorem evict_exact :
    (l.evict maxAge).pool = { l.pool with
      available := (l.pool.available.filter (Surface.lasts maxAge)).map Surface.aged } ∧
    (l.evict maxAge).device =
      l.device.without (l.pool.available.filter fun x => !x.lasts maxAge) := by
  rw [← Surface.ticked_eq, ← funext (Surface.tick?_isNone maxAge), ← Device.releaseAll_without h]
  unfold evict
  dsimp only
  split
  · exact ⟨rfl, rfl⟩
  · exact ⟨rfl, rfl⟩

/-- A tick after which no surface can be made smaller. -/
theorem collect_none
    (hnone : ∀ x ∈ (l.pool.available.filter (Surface.lasts maxAge)).map Surface.aged,
      x.shrinkable = false) :
    ∃ l' : Locked φ, l.collect maxAge = (.ok (), l'.report) ∧
      l'.pool = { l.pool with
        available := (l.pool.available.filter (Surface.lasts maxAge)).map Surface.aged } ∧
      l'.device = l.device.without (l.pool.available.filter fun x => !x.lasts maxAge) := by
  obtain ⟨hpool, hdevice⟩ := evict_exact h maxAge
  have hshrink : (l.evict maxAge).shrinkFirst = (.ok (), l.evict maxAge) :=
    shrinkFirst_none (by rw [hpool]; exact hnone)
  have hcollect := collect_calm (congrArg Prod.fst hshrink)
  rw [hshrink] at hcollect
  exact ⟨_, hcollect, hpool, hdevice⟩

/-- A tick after which `x` is the first surface that can be made smaller. -/
theorem collect_first {front back : List Surface} {x : Surface}
    (hsplit : (l.pool.available.filter (Surface.lasts maxAge)).map Surface.aged =
      front ++ x :: back)
    (hx : x.shrinkable = true) (hfront : ∀ y ∈ front, y.shrinkable = false)
    (calm : (Allocator.answer l.device.allocator x.size l.pool.nextId).1 ≠ .panicked) :
    let rest := l.device.without ((l.pool.available.filter fun x => !x.lasts maxAge) ++ [x])
    ∃ l' : Locked φ, l.collect maxAge = (.ok (), l'.report) ∧
      l'.pool = ({ l.pool with available := front ++ back } : Pool).replenished 1
        (rest.given x.size l.pool.nextId) ∧
      l'.device = rest.answered x.size l.pool.nextId := by
  intro rest
  obtain ⟨hpool, hdevice⟩ := evict_exact h maxAge
  have hfirst := shrinkFirst_first (l := l.evict maxAge) (by rw [hpool]; exact hsplit) hx hfront
  rw [hdevice, hpool, Device.without_release h] at hfirst
  obtain ⟨hanswered, hleft, hok⟩ := hfirst
  exact ⟨_, collect_calm (hok calm), hleft, hanswered⟩

end Tick

end Locked

namespace System

/-- What a maintenance call comes to. The surfaces `kept` stay idle and those in `gone` go. Then the
    device is asked for the `sizes`, and what it `made` becomes idle; the period is closed with a
    report on that. The rest of the process is as before, but for the journal. -/
structure Maintained (s : System φ) (o : OpenPool) (kept gone : List Surface) (sizes : List Size)
    (made : List Surface) (requests : List Request) (result : Reply × System φ) : Prop where
  outcome : ∃ journal, result = (.done,
    { s with
      current := some { o with pool := { o.pool with
        available := kept ++ made
        nextId := ⟨.ofNat (o.pool.nextId.number.toNat + sizes.length)⟩
        created := 0
        reused := 0
        lastReport :=
          { cachedCount := (kept ++ made).length
            cachedBytes :=
              ⟨min (Surface.exactFootprint (kept ++ made)) byteLimit, Nat.min_le_right _ _⟩
            created := o.pool.created + made.length
            reused := o.pool.reused
            pendingCount := o.pool.pending.size
            cache := s.device.usage } } }
      device := result.2.device
      journal })
  asked : (s.device.without gone).Asked o.pool.nextId sizes made requests result.2.device
  /-- What goes does not exist any more when a request is made. -/
  apart : ∀ x ∈ gone, x.serial ∉ result.2.device.alive ∧ ∀ r ∈ requests, x.serial ∉ r.existing
  /-- Nothing else goes. -/
  stays : ∀ n ∈ s.device.alive, n ∉ gone.map Surface.serial → n ∈ result.2.device.alive

variable {s : System φ} {o : OpenPool}

omit [Allocator φ] in
theorem Sound.idle_alive (sound : s.Sound) (ho : s.current = some o) {x : Surface}
    (hx : x ∈ o.pool.available) : x.serial ∈ s.device.alive := by
  have hpooled : x ∈ s.pooled := by
    unfold pooled
    rw [ho]
    exact List.mem_append_left _ hx
  exact sound.mem_alive (mem_owned_of_pooled hpooled)

theorem maintained (sound : s.Sound) (ho : s.current = some o) (hp : o.poisoned = false)
    (body : OpenPool → Locked φ → Ending Unit × Locked φ) {l : Locked φ}
    {kept gone made : List Surface} {sizes : List Size} {requests : List Request}
    (hbody : body o (s.inside o) = (.ok (), l.report))
    (hpool : l.pool = ({ o.pool with available := kept } : Pool).replenished sizes.length made)
    (hasked : (s.device.without gone).Asked o.pool.nextId sizes made requests l.device)
    (hgone : ∀ x ∈ gone, x.serial ∈ s.device.alive) :
    s.Maintained o kept gone sizes made requests (s.perform body) := by
  have hresult : s.perform body = (.done, s.leave o l.report) := by
    unfold perform
    rw [locked_open ho hp, hbody]
    exact congrArg (fun t => (Reply.done, t)) (leave_ok hp () l.report)
  have husage : l.device.usage = s.device.usage := hasked.usage
  have hreport : l.report.pool =
      (({ o.pool with available := kept } : Pool).replenished sizes.length made).closePeriod
        ((({ o.pool with available := kept } : Pool).replenished sizes.length made).stats
          s.device.usage) := by
    rw [← hpool, ← husage]
    rfl
  have hnew : ∀ x ∈ gone, ∀ y ∈ made, x.serial ≠ y.serial := by
    intro x hx y hy he
    have hle := sound.books.2.2 _ (hgone x hx)
    have hlt : s.device.built < y.serial := hasked.fresh y hy
    omega
  have hout : ∀ x ∈ gone, ∀ ys, ys <+: made →
      x.serial ∉ (ys.map Surface.serial).reverse ++ (s.device.without gone).alive := by
    intro x hx ys hys hmem
    rcases List.mem_append.mp hmem with hmem | hmem
    · obtain ⟨y, hy, he⟩ := List.mem_map.mp (List.mem_reverse.mp hmem)
      exact hnew x hx y (hys.subset hy) he.symm
    · exact ((s.device.mem_without gone x.serial).mp hmem).2 (List.mem_map_of_mem hx)
  rw [hresult]
  refine ⟨⟨l.report.journal, ?_⟩, hasked, fun x hx => ⟨?_, fun r hr => ?_⟩, fun n hn hkept => ?_⟩
  · unfold leave
    rw [hreport]
    unfold Pool.stats Pool.cachedBytes
    rw [Surface.totalFootprint_eq]
    rfl
  · change x.serial ∉ l.device.alive
    rw [hasked.alive]
    exact hout x hx made List.prefix_rfl
  · obtain ⟨i, hi⟩ := List.getElem?_of_mem hr
    obtain ⟨earlier, hearlier, -, he⟩ := hasked.existing i r hi
    rw [he]
    exact hout x hx earlier hearlier
  · change n ∈ l.device.alive
    rw [hasked.alive]
    exact List.mem_append_right _ ((s.device.mem_without gone n).mpr ⟨hn, hkept⟩)

end System

/-- What a maintenance tick does in a pool that is not poisoned. Those idle surfaces that can be
    used get one tick older, and go if they are too old then; the others go as they are. If one of
    those that stay is oversized and of stable use, the first such one goes too, and after that one
    surface of its size is asked for. -/
theorem collect_exact {s : System φ} {o : OpenPool} (sound : s.Sound) (ho : s.current = some o)
    (hp : o.poisoned = false) :
    let stay := (o.pool.available.filter (Surface.lasts o.config.maxAge)).map Surface.aged
    let old := o.pool.available.filter fun x => !x.lasts o.config.maxAge
    ((∀ x ∈ stay, x.oversized = true → x.stable = false) →
      s.Maintained o stay old [] [] [] (s.step .collect)) ∧
    ∀ front x back, stay = front ++ x :: back → x.oversized = true → x.stable = true →
      (∀ y ∈ front, y.oversized = true → y.stable = false) →
      (Allocator.answer s.device.allocator x.size o.pool.nextId).1 ≠ .panicked →
      ∃ made request, s.Maintained o (front ++ back) (old ++ [x]) [x.size] made [request]
        (s.step .collect) := by
  intro stay old
  have hold : ∀ x ∈ old, x.serial ∈ s.device.alive := fun x hx =>
    sound.idle_alive ho (List.mem_of_mem_filter hx)
  constructor
  · intro hnone
    obtain ⟨l, hcollect, hpool, hdevice⟩ :=
      Locked.collect_none (l := s.inside o) sound.alive_nodup o.config.maxAge
        fun x hx => Surface.not_shrinkable (hnone x hx)
    have hasked : (s.device.without old).Asked o.pool.nextId [] [] [] l.device := by
      rw [hdevice]
      exact Device.asked_nothing _ _
    exact System.maintained sound ho hp (fun o l => l.collect o.config.maxAge) hcollect
      (hpool.trans (Pool.replenished_nothing _).symm) hasked hold
  · intro front x back hsplit hlarge hstable hfront calm
    have hx : x.shrinkable = true := Bool.and_eq_true_iff.mpr ⟨hlarge, hstable⟩
    obtain ⟨l, hcollect, hpool, hdevice⟩ :=
      Locked.collect_first (l := s.inside o) sound.alive_nodup o.config.maxAge hsplit hx
        (fun y hy => Surface.not_shrinkable (hfront y hy)) calm
    let rest := s.device.without (old ++ [x])
    have hanswered : l.device = rest.answered x.size o.pool.nextId := hdevice
    have hasked := rest.asked_one x.size o.pool.nextId
    rw [← hanswered] at hasked
    have hgone : ∀ y ∈ old ++ [x], y.serial ∈ s.device.alive := by
      intro y hy
      rcases List.mem_append.mp hy with hy | hy
      · exact hold y hy
      · obtain rfl := List.mem_singleton.mp hy
        have hstay : y ∈ stay := by
          rw [hsplit]
          exact List.mem_append_right _ List.mem_cons_self
        obtain ⟨z, hz, rfl⟩ := List.mem_map.mp hstay
        have halive := sound.idle_alive ho (List.mem_of_mem_filter hz)
        exact halive
    exact ⟨_, _, System.maintained sound ho hp (fun o l => l.collect o.config.maxAge) hcollect
      hpool hasked hgone⟩

open Scenario in
/-- One idle surface went bad and goes. The next one is too large, and a smaller one comes in its
    place behind the third. -/
theorem collect_exact_of_replacement :
    ∃ (s : System Faults) (o : OpenPool) (bad large fine : Surface) (made : List Surface)
      (request : Request),
      s.Sound ∧ s.current = some o ∧ o.poisoned = false ∧ o.pool.available = [bad, large, fine] ∧
      [bad, large, fine].map Surface.serial = [1, 2, 3] ∧ bad.valid = false ∧
      large.oversized = true ∧ large.stable = true ∧ fine.oversized = false ∧
      s.Maintained o [fine.aged] [bad, large.aged] [⟨8, 8⟩] made [request] (s.step .collect) ∧
      made.map Surface.toFeatures = [{ id := ⟨4⟩, size := ⟨8, 8⟩ }] ∧
      request.id.number.toNat = 4 ∧
      2 ∉ request.existing := by
  have opened : Life (fun _ _ => True) _ _ := .opened none (.start ({} : Faults) {} {}) rfl
  have one := (opened.move (.acquire ⟨8, 8⟩) rfl trivial).move (.flushed true) rfl trivial
  have two := (one.move (.acquire ⟨8, 8⟩) rfl trivial).move (.flushed true) rfl trivial
  have three := (two.move (.acquire ⟨8, 8⟩) rfl trivial).move (.flushed true) rfl trivial
  have first := ((three.move (.submit 1) rfl trivial).move .registered rfl trivial).move (.fire 1)
    rfl trivial
  have second := ((first.move (.submit 2) rfl trivial).move .registered rfl trivial).move (.fire 2)
    rfl trivial
  have third := ((second.move (.submit 3) rfl trivial).move .registered rfl trivial).move (.fire 3)
    rfl trivial
  have life := (third.move (.touch 1 fun f => { f with valid := false }) rfl trivial).move
    (.touch 2 fun f => { f with oversized := true }) rfl trivial
  obtain ⟨o, ho⟩ := life.current
  obtain rfl := Option.some.inj ho
  obtain ⟨-, hreplaced⟩ := collect_exact life.sound ho rfl
  obtain ⟨made, request, h⟩ := hreplaced [] _ [_] rfl rfl rfl (by simp) (Faults.calm rfl _ _).1
  have hgone := (h.apart _ (List.mem_append_right _ List.mem_cons_self)).2 request
    List.mem_cons_self
  exact ⟨_, _, _, _, _, made, request, life.sound, ho, rfl, rfl, rfl, rfl, rfl, rfl, rfl, h,
    h.asked.features, h.asked.ids 0 request rfl, hgone⟩

end SurfaceReuse
