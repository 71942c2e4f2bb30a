import SurfaceReuse.Proofs.Ownership
import SurfaceReuse.Proofs.Requests
import SurfaceReuse.Scenario.Faults

set_option autoImplicit false

/-!
What one acquisition does, from the request to the end of the surface's own code, when nothing
else happens meanwhile.
-/

namespace SurfaceReuse

variable {φ : Type} [Allocator φ]

namespace Locked

variable {l : Locked φ} {size : Size}

theorem obtain_found {x : Surface} {front back : List Surface}
    (h : l.pool.available = front ++ x :: back) (hx : x.fits size = true)
    (hfront : ∀ y ∈ front, y.fits size = false) :
    l.obtain size = (.ok (x, true),
      { l with pool := { l.pool with available := front ++ back } }.log (.matchFound x.id)) := by
  obtain ⟨hfind, herase⟩ := first_eq hx hfront back
  have htake : l.take? size = some (x,
      { l with pool := { l.pool with available := front ++ back } }.log (.matchFound x.id)) := by
    unfold take? Pool.take?
    rw [h, hfind, herase]
    rfl
  unfold obtain
  rw [htake]

/-- If no idle surface fits, a new one is asked for. -/
theorem obtain_new (h : ∀ x ∈ l.pool.available, x.fits size = false) :
    l.obtain size = ((l.create size).1.map fun x => (x, false), (l.create size).2) := by
  have hnone : l.take? size = none := by
    unfold take? Pool.take?
    rw [List.find?_eq_none.mpr fun x hx => by simp [h x hx]]
    rfl
  unfold obtain
  rw [hnone]

section New

variable (h : ∀ x ∈ l.pool.available, x.fits size = false)

include h

theorem obtain_refused
    (hg : (Allocator.answer l.device.allocator size l.pool.nextId).1 = .refused) :
    ∃ journal, l.obtain size = (.failed (.creationFailed size),
      { pool := { l.pool with nextId := l.pool.nextId.next }
        device :=
          { l.device with
            allocator := (Allocator.answer l.device.allocator size l.pool.nextId).2
            requests := ⟨l.pool.nextId, size, l.device.alive, .refused⟩ :: l.device.requests }
        journal }) := by
  rw [obtain_new h, create_eq]
  unfold requested Device.request
  generalize Allocator.answer l.device.allocator size l.pool.nextId = r at hg ⊢
  obtain ⟨given, allocator⟩ := r
  obtain rfl : given = _ := hg
  exact ⟨_, rfl⟩

variable {f : Features}
  (hg : (Allocator.answer l.device.allocator size l.pool.nextId).1 = .made f)

include hg

theorem obtain_unusable (hv : f.valid = false) :
    ∃ journal, l.obtain size = (.failed (.invalidSurface size),
      { pool := { l.pool with nextId := l.pool.nextId.next }
        device :=
          { l.device with
            allocator := (Allocator.answer l.device.allocator size l.pool.nextId).2
            requests := ⟨l.pool.nextId, size, l.device.alive, .unusable⟩ :: l.device.requests
            built := l.device.built + 1 }
        journal }) := by
  rw [obtain_new h, create_eq]
  unfold requested Device.request
  generalize Allocator.answer l.device.allocator size l.pool.nextId = r at hg ⊢
  obtain ⟨given, allocator⟩ := r
  obtain rfl : given = _ := hg
  simp [Device.build, hv, release, log, Device.release, Ending.map, Answer.outcome]

theorem obtain_usable (hv : f.valid = true) :
    ∃ journal, l.obtain size = (.ok (⟨f, l.device.built + 1⟩, false),
      { pool := { l.pool with nextId := l.pool.nextId.next, created := l.pool.created + 1 }
        device :=
          { l.device with
            allocator := (Allocator.answer l.device.allocator size l.pool.nextId).2
            requests := ⟨l.pool.nextId, size, l.device.alive, .served⟩ :: l.device.requests
            built := l.device.built + 1
            alive := (l.device.built + 1) :: l.device.alive }
        journal }) := by
  rw [obtain_new h, create_eq]
  unfold requested Device.request
  generalize Allocator.answer l.device.allocator size l.pool.nextId = r at hg ⊢
  obtain ⟨given, allocator⟩ := r
  obtain rfl : given = _ := hg
  simp [Device.build, hv, log, Pool.countCreated, Ending.map, Answer.outcome]

end New

end Locked

namespace System

/-- What an acquisition comes to: the answer, the pool and the device afterwards, and what the
    caller got. The rest of the process is as before, but for the journal. -/
structure Acquired (s : System φ) (o : OpenPool) (result : Reply × System φ) (reply : Reply)
    (pool : Pool) (device : Device φ) (got : List Surface) : Prop where
  outcome : ∃ journal, result = (reply,
    { s with current := some { o with pool }, device, held := s.held ++ got, journal })
  pending : pool.pending = o.pool.pending
  capacity : pool.capacity = o.pool.capacity
  lastReport : pool.lastReport = o.pool.lastReport
  /-- At most one of the counters moves, and by one. -/
  counters : (pool.created, pool.reused) = (o.pool.created, o.pool.reused) ∨
    (pool.created, pool.reused) = (o.pool.created + 1, o.pool.reused) ∨
    (pool.created, pool.reused) = (o.pool.created, o.pool.reused + 1)

end System

/-- What an acquisition does in a pool that is not poisoned. The first idle surface that is valid
    and of the right size is taken out, and counts as reused if it becomes ready. If there is none,
    one is asked for under the next id, which is spent whatever the answer is; a new surface counts
    as created once it is known to be valid. A surface that is not handed out is gone. -/
theorem acquire_exact {s : System φ} {o : OpenPool} (ho : s.current = some o)
    (hp : o.poisoned = false) (size : Size) (ready : Bool) :
    (∀ front x back, o.pool.available = front ++ x :: back → x.valid = true → x.size = size →
      (∀ y ∈ front, y.valid = true → y.size ≠ size) →
      (ready = true → s.Acquired o (s.fetch size (some ready)) (.handed (x.withFeatures x.rested))
        { o.pool with available := front ++ back, reused := o.pool.reused + 1 } s.device
        [x.withFeatures x.rested]) ∧
      (ready = false → s.Acquired o (s.fetch size (some ready)) (.failed (.flushFailed x.id))
        { o.pool with available := front ++ back } (s.device.release x) [] ∧
        (s.Sound → x.serial ∉ (s.device.release x).alive))) ∧
    ((∀ x ∈ o.pool.available, x.valid = true → x.size ≠ size) →
      let id := o.pool.nextId
      let given := Allocator.answer s.device.allocator size id
      let pool : Pool := { o.pool with nextId := id.next }
      let device : Outcome → Device φ := fun outcome =>
        { s.device with
          allocator := given.2
          requests := ⟨id, size, s.device.alive, outcome⟩ :: s.device.requests }
      let number := s.device.built + 1
      id.next.number.toNat = (id.number.toNat + 1) % UInt64.size ∧
      (given.1 = .refused → s.Acquired o (s.fetch size (some ready))
        (.failed (.creationFailed size)) pool (device .refused) []) ∧
      (∀ f, given.1 = .made f → f.valid = false → s.Acquired o (s.fetch size (some ready))
        (.failed (.invalidSurface size)) pool { device .unusable with built := number } []) ∧
      (∀ f, given.1 = .made f → f.valid = true → ready = true →
        s.Acquired o (s.fetch size (some ready)) (.handed ⟨f.rested, number⟩)
          { pool with created := o.pool.created + 1 }
          { device .served with built := number, alive := number :: s.device.alive }
          [⟨f.rested, number⟩]) ∧
      (∀ f, given.1 = .made f → f.valid = true → ready = false →
        s.Acquired o (s.fetch size (some ready)) (.failed (.flushFailed f.id))
          { pool with created := o.pool.created + 1 }
          { device .served with built := number } [])) := by
  have hfits : ∀ y : Surface, (y.valid = true → y.size ≠ size) → y.fits size = false := by
    intro y hy
    unfold Surface.fits
    cases hv : y.valid with
    | false => rfl
    | true => simpa using hy hv
  refine ⟨fun front x back hsplit hv hs hfront => ?_, fun hnone => ?_⟩
  · have hx : x.fits size = true := by
      simp [Surface.fits, hv, hs]
    have hfound := Locked.obtain_found (l := s.inside o) hsplit hx fun y hy =>
      hfits y (hfront y hy)
    refine ⟨?_, ?_⟩
    · rintro rfl
      exact ⟨System.fetch_ready ho hp hfound, rfl, rfl, rfl, .inr (.inr rfl)⟩
    · rintro rfl
      obtain ⟨journal, h⟩ := System.fetch_unready ho hp hfound
      have hresult : s.Acquired o (s.fetch size (some false)) (.failed (.flushFailed x.id))
          { o.pool with available := front ++ back } (s.device.release x) [] :=
        ⟨⟨journal, by rw [h, List.append_nil]; rfl⟩, rfl, rfl, rfl, .inl rfl⟩
      exact ⟨hresult, fun sound => sound.alive_nodup.not_mem_erase⟩
  · intro id given pool device number
    have hmiss : ∀ y ∈ (s.inside o).pool.available, y.fits size = false :=
      fun y hy => hfits y (hnone y hy)
    refine ⟨id.next_toNat, ?refused, ?unusable, ?handed, ?unready⟩
    case refused =>
      intro hg
      obtain ⟨journal, hobtain⟩ := Locked.obtain_refused hmiss hg
      obtain ⟨journal, h⟩ := System.fetch_failed ho hp hobtain (some ready)
      exact ⟨⟨journal, by rw [h, List.append_nil]; rfl⟩, rfl, rfl, rfl, .inl rfl⟩
    case unusable =>
      intro f hg hv
      obtain ⟨journal, hobtain⟩ := Locked.obtain_unusable hmiss hg hv
      obtain ⟨journal, h⟩ := System.fetch_failed ho hp hobtain (some ready)
      exact ⟨⟨journal, by rw [h, List.append_nil]; rfl⟩, rfl, rfl, rfl, .inl rfl⟩
    case handed =>
      rintro f hg hv rfl
      obtain ⟨journal, hobtain⟩ := Locked.obtain_usable hmiss hg hv
      exact ⟨System.fetch_ready ho hp hobtain, rfl, rfl, rfl, .inr (.inl rfl)⟩
    case unready =>
      rintro f hg hv rfl
      obtain ⟨journal, hobtain⟩ := Locked.obtain_usable hmiss hg hv
      obtain ⟨journal, h⟩ := System.fetch_unready ho hp hobtain
      refine ⟨⟨journal, ?_⟩, rfl, rfl, rfl, .inr (.inl rfl)⟩
      rw [h, List.append_nil]
      simp [Device.release, System.inside, device, pool, given, id, number]

open Scenario in
/-- The oldest idle surface went bad, so the second one is found; a wider one has to be made. -/
theorem acquire_exact_of_second :
    ∃ (s : System Faults) (o : OpenPool) (bad good : Surface),
      s.Sound ∧ s.current = some o ∧ o.poisoned = false ∧ o.pool.available = [bad, good] ∧
      bad.size = ⟨8, 8⟩ ∧ bad.valid = false ∧ good.serial = 2 ∧
      s.Acquired o (s.fetch ⟨8, 8⟩ (some true)) (.handed (good.withFeatures good.rested))
        { o.pool with available := [bad], reused := 1 } s.device
        [good.withFeatures good.rested] ∧
      s.Acquired o (s.fetch ⟨8, 8⟩ (some false)) (.failed (.flushFailed ⟨2⟩))
        { o.pool with available := [bad] } (s.device.release good) [] ∧
      2 ∉ (s.device.release good).alive ∧
      (s.fetch ⟨16, 8⟩ (some true)).1 = .handed ⟨{ id := ⟨3⟩, size := ⟨16, 8⟩ }, 3⟩ := by
  have opened : Life (fun _ _ => True) _ _ := .opened none (.start ({} : Faults) {} {}) rfl
  have one := (opened.move (.acquire ⟨8, 8⟩) rfl trivial).move (.flushed true) rfl trivial
  have both := (one.move (.acquire ⟨8, 8⟩) rfl trivial).move (.flushed true) rfl trivial
  have back := ((both.move (.submit 1) rfl trivial).move .registered rfl trivial).move (.fire 1)
    rfl trivial
  have idle := ((back.move (.submit 2) rfl trivial).move .registered rfl trivial).move (.fire 2)
    rfl trivial
  have life := idle.move (.touch 1 fun f => { f with valid := false }) rfl trivial
  obtain ⟨o, ho⟩ := life.current
  obtain rfl := Option.some.inj ho
  obtain ⟨hready, -⟩ := acquire_exact ho rfl ⟨8, 8⟩ true
  obtain ⟨hunready, -⟩ := acquire_exact ho rfl ⟨8, 8⟩ false
  obtain ⟨-, hmiss⟩ := acquire_exact ho rfl ⟨16, 8⟩ true
  obtain ⟨hhanded, -⟩ := hready [_] _ [] rfl rfl rfl (by decide)
  obtain ⟨-, hfailed⟩ := hunready [_] _ [] rfl rfl rfl (by decide)
  obtain ⟨hlost, hgone⟩ := hfailed rfl
  obtain ⟨-, -, -, hnew, -⟩ := hmiss (by decide)
  obtain ⟨journal, hresult⟩ := (hnew _ rfl rfl rfl).outcome
  exact ⟨_, _, _, _, life.sound, ho, rfl, rfl, rfl, rfl, rfl, hhanded rfl, hlost,
    hgone life.sound, congrArg Prod.fst hresult⟩

end SurfaceReuse
