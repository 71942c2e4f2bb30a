import SurfaceReuse.Proofs.Demand
import SurfaceReuse.Proofs.Maintenance
import SurfaceReuse.Proofs.ReuseShare

set_option autoImplicit false

/-!
What exists while the device is asked for a surface. Right-sizing lets a surface go before it asks
for the one in its place, and an acquisition asks only if no idle surface fits; so not even in the
middle of a move are there more surfaces of a size than were out of the pool together.
-/

namespace SurfaceReuse

variable {φ : Type}

/-- The surfaces that existed at a request in the move: those from before that were left, and those
    that the move had brought by then. -/
def Moment.present (m : Moment φ) (r : Request) : List Surface :=
  (m.before.owned ++ m.after.owned.filter fun x => decide (m.before.device.built < x.serial)).filter
    fun x => r.existing.contains x.serial

theorem filter_perm_of_split {α : Type} {p : α → Bool} {xs ys zs : List α}
    (h : (ys ++ zs).Perm xs) (hy : ∀ y ∈ ys, p y = true) (hz : ∀ z ∈ zs, p z = false) :
    (xs.filter p).Perm ys := by
  have hfilter := (h.filter p).symm
  have hnone : zs.filter p = [] := List.filter_eq_nil_iff.mpr fun z hz' => by simp [hz z hz']
  rw [List.filter_append, List.filter_eq_self.mpr hy, hnone, List.append_nil] at hfilter
  exact hfilter

namespace Moment

variable {m : Moment φ} (sound : m.before.Sound) {r : Request} {gone others came : List Surface}
  (he : r.existing = (came.map Surface.serial).reverse ++ (m.before.device.without gone).alive)

include he in
theorem existing_contains (n : Nat) : r.existing.contains n = true ↔
    n ∈ came.map Surface.serial ∨ n ∈ m.before.device.alive ∧ n ∉ gone.map Surface.serial := by
  rw [he, List.contains_iff_mem, List.mem_append, List.mem_reverse, Device.mem_without]

include sound in
theorem others_stay (hsplit : (gone ++ others).Perm m.before.owned) {x : Surface}
    (hx : x ∈ others) :
    x.serial ∈ m.before.device.alive ∧ x.serial ∉ gone.map Surface.serial := by
  have hnodup := ((hsplit.map Surface.serial).nodup_iff).mpr sound.nodup
  rw [List.map_append] at hnodup
  refine ⟨sound.mem_alive (hsplit.mem_iff.mp (List.mem_append_right _ hx)), fun hg => ?_⟩
  exact (List.nodup_append.mp hnodup).2.2 _ hg _ (List.mem_map_of_mem hx) rfl

include sound in
theorem present_nodup (sound' : m.after.Sound) : ((m.present r).map Surface.serial).Nodup := by
  refine (List.filter_sublist.map Surface.serial).nodup ?_
  rw [List.map_append]
  refine List.nodup_append.mpr ⟨sound.nodup, ?_, fun n hn k hk => ?_⟩
  · exact (List.filter_sublist.map Surface.serial).nodup sound'.nodup
  · obtain ⟨x, hx, rfl⟩ := List.mem_map.mp hn
    obtain ⟨y, hy, rfl⟩ := List.mem_map.mp hk
    have hlater := of_decide_eq_true (List.mem_filter.mp hy).2
    have hle := sound.serial_le hx
    omega

include sound he

theorem present_before (hsplit : (gone ++ others).Perm m.before.owned)
    (hnew : ∀ x ∈ came, m.before.device.built < x.serial) :
    (m.before.owned.filter fun x => r.existing.contains x.serial).Perm others := by
  refine filter_perm_of_split (List.perm_append_comm.trans hsplit) (fun x hx => ?_) fun x hx => ?_
  · exact (existing_contains he _).mpr (.inr (others_stay sound hsplit hx))
  · rw [← Bool.not_eq_true, existing_contains he]
    rintro (hc | ⟨-, hno⟩)
    · obtain ⟨y, hy, hsame⟩ := List.mem_map.mp hc
      have hlater := hnew y hy
      have hle := sound.serial_le (hsplit.mem_iff.mp (List.mem_append_left _ hx))
      omega
    · exact hno (List.mem_map_of_mem hx)

theorem present_meanwhile (hnew : ∀ x ∈ came, m.before.device.built < x.serial)
    (sound' : m.after.Sound) {rest : List Surface} (hcame : (came ++ rest).Perm m.after.owned) :
    ((m.after.owned.filter fun x => decide (m.before.device.built < x.serial)).filter
      fun x => r.existing.contains x.serial).Perm came := by
  have hnodup := ((hcame.map Surface.serial).nodup_iff).mpr sound'.nodup
  rw [List.map_append] at hnodup
  rw [List.filter_filter]
  refine filter_perm_of_split hcame (fun x hx => ?_) fun x hx => ?_
  · exact Bool.and_eq_true_iff.mpr
      ⟨(existing_contains he _).mpr (.inl (List.mem_map_of_mem hx)), decide_eq_true (hnew x hx)⟩
  · rw [← Bool.not_eq_true, Bool.and_eq_true_iff, existing_contains he, decide_eq_true_eq]
    rintro ⟨hc | ⟨halive, -⟩, hlater⟩
    · exact (List.nodup_append.mp hnodup).2.2 _ hc _ (List.mem_map_of_mem hx) rfl
    · have hle := sound.books.2.2 _ halive
      omega

theorem existing_perm (hsplit : (gone ++ others).Perm m.before.owned) :
    ((others ++ came).map Surface.serial).Perm r.existing := by
  have hserials := (hsplit.map Surface.serial).trans sound.alive_perm
  rw [List.map_append] at hserials
  have hleft : (m.before.device.without gone).alive.Perm (others.map Surface.serial) := by
    refine filter_perm_of_split (List.perm_append_comm.trans hserials) (fun n hn => ?_)
      fun n hn => ?_
    · obtain ⟨x, hx, rfl⟩ := List.mem_map.mp hn
      simpa using (others_stay sound hsplit hx).2
    · simpa using hn
  rw [he, List.map_append]
  exact List.perm_append_comm.trans ((List.reverse_perm _).symm.append hleft.symm)

/-- At a request those surfaces exist that have not gone, and those that have come. -/
theorem present_perm (hsplit : (gone ++ others).Perm m.before.owned)
    (hnew : ∀ x ∈ came, m.before.device.built < x.serial) (sound' : m.after.Sound)
    {rest : List Surface} (hcame : (came ++ rest).Perm m.after.owned) :
    (m.present r).Perm (others ++ came) ∧ ((m.present r).map Surface.serial).Perm r.existing := by
  have hpresent : (m.present r).Perm (others ++ came) := by
    unfold present
    rw [List.filter_append]
    exact (present_before sound he hsplit hnew).append
      (present_meanwhile sound he hnew sound' hcame)
  exact ⟨hpresent, (hpresent.map _).trans (existing_perm sound he hsplit)⟩

end Moment

theorem System.owned_split {s : System φ} {xs ys : List Surface} (h : (xs ++ ys).Perm s.available) :
    (xs ++ (ys ++ s.out)).Perm s.owned := by
  rw [← List.append_assoc]
  refine (h.append_right s.out).trans (List.Perm.trans ?_ s.owned_perm.symm)
  unfold out
  rw [← List.append_assoc]
  exact List.perm_append_comm.append_right _

/-- A request that was made while the idle surfaces changed from `idle` to `idle'`. Those in `gone`
    went before it, one of the requested size among them; `came` is what the device had made in the
    place of others by then. -/
structure Device.Replaces [Allocator φ] (d : Device φ) (idle idle' : List Surface) (r : Request)
    (gone came : List Surface) : Prop where
  idle : ∃ rest, (gone ++ rest).Perm idle
  sizes : ∃ done more, (gone.map fun x => x.size).Perm (done ++ r.size :: more) ∧
    d.Supply done came
  kept : came.Sublist idle'
  existing : r.existing = (came.map Surface.serial).reverse ++ (d.without gone).alive

variable [Allocator φ]

namespace Locked

def RightSizes (l l' : Locked φ) : Prop :=
  ∃ new, l'.device.requests = new ++ l.device.requests ∧
    ∀ r ∈ new, ∃ gone came,
      l.device.Replaces l.pool.available l'.pool.available r gone came

theorem RightSizes.reported {α : Type} {l : Locked φ} {r : Ending α × Locked φ}
    (h : l.RightSizes r.2) : l.RightSizes (if r.1.isPanic then r.2 else r.2.report) := by
  split
  · exact h
  · exact h

variable {l : Locked φ} (h : l.device.alive.Nodup)

include h

omit [Allocator φ] h in
theorem evicted_split {maxAge : UInt32} {y : Surface}
    (hy : y ∈ l.pool.available.filter (Surface.lasts maxAge)) :
    ∃ rest, ((l.pool.available.filter fun x => !x.lasts maxAge) ++ [y] ++ rest).Perm
      l.pool.available := by
  have hall := List.filter_append_perm (Surface.lasts maxAge) l.pool.available
  refine ⟨(l.pool.available.filter (Surface.lasts maxAge)).erase y, ?_⟩
  rw [List.append_assoc]
  exact ((List.perm_cons_erase hy).symm.append_left _).trans (List.perm_append_comm.trans hall)

theorem rightSizes_collect (maxAge : UInt32) : l.RightSizes (l.collect maxAge).2 := by
  rw [collect_eq]
  refine RightSizes.reported ?_
  obtain ⟨hpool, hdevice⟩ := evict_exact h maxAge
  have hrequests : (l.evict maxAge).device.requests = l.device.requests := by
    rw [hdevice]
    rfl
  cases hfind : (l.evict maxAge).pool.available.find? Surface.shrinkable with
  | none =>
    have hnone := List.find?_eq_none.mp hfind
    rw [shrinkFirst_none fun x hx => by simpa using hnone x hx]
    exact ⟨[], hrequests, nofun⟩
  | some x =>
    obtain ⟨hx, front, back, hsplit, hfront⟩ := List.find?_eq_some_iff_append.mp hfind
    obtain ⟨hanswered, hleft, -⟩ :=
      shrinkFirst_first hsplit hx fun y hy => by simpa using hfront y hy
    have hmem : x ∈ (l.evict maxAge).pool.available := List.mem_of_find?_eq_some hfind
    rw [hpool] at hmem
    obtain ⟨y, hy, rfl⟩ := List.mem_map.mp hmem
    refine ⟨[_], (congrArg Device.requests hanswered).trans (congrArg (_ :: ·) hrequests),
      fun r hr => ?_⟩
    obtain rfl := List.mem_singleton.mp hr
    let old := l.pool.available.filter fun x => !x.lasts maxAge
    refine ⟨old ++ [y], [], ⟨evicted_split hy, ⟨[], old.map fun x => x.size, ?sizes, .nothing _⟩,
      List.nil_sublist _, ?existing⟩⟩
    case sizes =>
      rw [List.map_append]
      exact List.perm_append_comm
    case existing =>
      change ((l.evict maxAge).device.release _).alive = (l.device.without (old ++ [y])).alive
      rw [hdevice, Device.without_release h]
      unfold Device.without
      rw [List.map_append, List.map_append]
      rfl

theorem rightSizes_shrink : l.RightSizes l.shrink.2 := by
  rw [shrink_eq]
  refine RightSizes.reported ?_
  let large := l.pool.available.filter fun x => x.oversized
  have hdevice : l.withoutLarge.device = l.device.without large :=
    Device.releaseAll_without h large
  obtain ⟨done, rest, made, requests, hsizes, hpool, hasked, -⟩ :=
    l.withoutLarge.replenishAll_exact l.largeSizes
  rw [hdevice] at hasked
  refine ⟨requests.reverse, hasked.recorded, fun r hr => ?_⟩
  obtain ⟨i, hi⟩ := List.getElem?_of_mem (List.mem_reverse.mp hr)
  obtain ⟨came, hcame, hs, he⟩ := hasked.existing i r hi
  have hsize : done[i]? = some r.size := by
    rw [← hasked.inOrder, List.getElem?_map, hi]
    rfl
  obtain ⟨hlt, hget⟩ := List.getElem?_eq_some_iff.mp hsize
  have hbuilt : l.device.built ≤ (l.device.without large).built := Nat.le_refl _
  refine ⟨large, came, ⟨_, List.filter_append_perm (fun x : Surface => x.oversized) _⟩,
    ⟨done.take i, done.drop (i + 1) ++ rest, ?sizes, hs.mono hbuilt⟩, ?kept, he⟩
  case sizes =>
    refine List.Perm.of_eq ?_
    change l.largeSizes = _
    rw [hsizes, ← List.cons_append, ← List.append_assoc, ← hget, ← List.drop_eq_getElem_cons,
      List.take_append_drop]
  case kept =>
    rw [hpool]
    exact hcame.sublist.trans (List.sublist_append_right _ _)

end Locked

namespace System

variable {s : System φ} {o : OpenPool}

theorem replaces_perform (ho : s.current = some o)
    {body : OpenPool → Locked φ → Ending Unit × Locked φ} {m : Move φ}
    (hm : s.step m = s.perform body)
    (hb : (s.inside o).RightSizes (body o (s.inside o)).2) {r : Request}
    (hr : r ∈ (s.moment m).requested) :
    ∃ gone came, s.device.Replaces s.available (s.step m).2.available r gone came := by
  have hafter : (s.step m).2 = (s.locked body).2 := congrArg Prod.snd hm
  cases hp : o.poisoned with
  | true =>
    rw [locked_poisoned ho hp] at hafter
    have hnone : (s.moment m).requested = [] :=
      Moment.requested_eq_nil (congrArg (fun t => t.device.requests) hafter)
    rw [hnone] at hr
    exact absurd hr List.not_mem_nil
  | false =>
    rw [locked_open ho hp] at hafter
    obtain ⟨new, hnew, hall⟩ := hb
    have hrequests : (s.step m).2.device.requests = new ++ s.device.requests :=
      (congrArg (fun t => t.device.requests) hafter).trans hnew
    rw [Moment.requested_eq (m := s.moment m) hrequests, List.mem_reverse] at hr
    rw [hafter, available_eq ho]
    exact hall r hr

theorem asked_acquire (ho : s.current = some o) {size : Size} {r : Request}
    (hr : r ∈ (s.moment (.acquire size)).requested) :
    r.size = size ∧ s.available.find? (Surface.fits size) = none ∧ r.existing = s.device.alive := by
  have hnothing : (s.acquire size).2.device.requests = s.device.requests → False := by
    intro h
    rw [Moment.requested_eq_nil (m := s.moment (.acquire size)) h] at hr
    exact absurd hr List.not_mem_nil
  have hobtained : (s.acquire size).2.device.requests =
      ((s.inside o).obtain size).2.device.requests := by
    rcases acquire_cases ho size with
      ⟨-, h⟩ | ⟨-, ⟨x, cached, -, h⟩ | ⟨error, -, h⟩ | ⟨-, h⟩⟩
    · exact (hnothing (by rw [h]; rfl)).elim
    all_goals
      rw [h]
      rfl
  cases htake : (s.inside o).take? size with
  | some taken =>
    obtain ⟨x, l⟩ := taken
    obtain ⟨-, rfl⟩ := Locked.take_eq_some htake
    refine (hnothing ?_).elim
    rw [hobtained]
    unfold Locked.obtain
    rw [htake]
    rfl
  | none =>
    have hnone : s.available.find? (Surface.fits size) = none := by
      rw [available_eq ho]
      simpa [Locked.take?, Pool.take?, inside] using htake
    have hcreated : (s.acquire size).2.device.requests =
        (s.device.answered size o.pool.nextId).requests := by
      rw [hobtained]
      unfold Locked.obtain
      rw [htake]
      exact congrArg Device.requests ((s.inside o).create_exact size).1
    rw [@Moment.requested_eq φ (s.moment (.acquire size)) [_] hcreated] at hr
    obtain rfl := List.mem_singleton.mp hr
    exact ⟨rfl, hnone, rfl⟩

/-- The device is asked for a surface when an acquisition finds no idle one, and in the course of
    right-sizing. -/
theorem asked_step (sound : s.Sound) (ho : s.current = some o) (m : Move φ)
    (stays : m.staysOpen = true) {r : Request} (hr : r ∈ (s.moment m).requested) :
    (m = .acquire r.size ∧ s.available.find? (Surface.fits r.size) = none ∧
        r.existing = s.device.alive) ∨
      ∃ gone came, s.device.Replaces s.available (s.step m).2.available r gone came := by
  have hsilent : (s.step m).2.device.requests = s.device.requests → False := by
    intro h
    rw [Moment.requested_eq_nil (m := s.moment m) h] at hr
    exact absurd hr List.not_mem_nil
  cases m with
  | openPool config => exact absurd stays (by simp [Move.staysOpen])
  | closePool => exact absurd stays (by simp [Move.staysOpen])
  | acquire size =>
    obtain ⟨rfl, hnone, he⟩ := asked_acquire ho hr
    exact .inl ⟨rfl, hnone, he⟩
  | collect =>
    have hm : s.step .collect = s.perform fun o l => l.collect o.config.maxAge := rfl
    exact .inr (replaces_perform ho hm (Locked.rightSizes_collect sound.alive_nodup _) hr)
  | shrink =>
    have hm : s.step .shrink = s.perform fun _ l => l.shrink := rfl
    exact .inr (replaces_perform ho hm (Locked.rightSizes_shrink sound.alive_nodup) hr)
  | flushed ok => exact (hsilent (requests_flushed ho ok)).elim
  | unwind => exact (hsilent s.requests_unwind).elim
  | submit serial => exact (hsilent (s.unasked_submit serial).requests).elim
  | registered => exact (hsilent (unasked_registered ho).requests).elim
  | fire hook => exact (hsilent (s.unasked_fire hook).requests).elim
  | report => exact (hsilent s.unasked_report.requests).elim
  | drop serial => exact (hsilent (s.unasked_drop serial).requests).elim
  | touch serial change => exact (hsilent (s.unasked_touch serial change).requests).elim
  | lastReport | availableCount | pendingCount | cachedBytes | isPending id | build features
  | adjust change | reportUsage usage => exact (hsilent rfl).elim

end System

/-- At least one more surface of the size that is asked for went than had come. -/
theorem Device.Replaces.countP_le (hsizes : Allocator.KeepsSizes φ) {d : Device φ}
    {idle idle' gone came : List Surface} {r : Request} (h : d.Replaces idle idle' r gone came)
    {size : Size} {elsewhere : List Nat} (hown : ∀ x ∈ idle, x.serial ∉ elsewhere) :
    came.countP (Surface.isOwn size elsewhere) + (if r.size = size then 1 else 0) ≤
      gone.countP (Surface.isOwn size elsewhere) := by
  obtain ⟨done, more, hperm, hsupply⟩ := h.sizes
  obtain ⟨rest, hidle⟩ := h.idle
  have hcame : came.countP (Surface.isOwn size elsewhere) ≤ done.countP (· == size) :=
    hsupply.countP_le_sizes hsizes
  have hgone := hperm.countP_eq (· == size)
  rw [countP_sizes fun x hx => hown x (hidle.mem_iff.mp (List.mem_append_left _ hx)),
    List.countP_append, List.countP_cons] at hgone
  have hone : (if (r.size == size) = true then 1 else 0) = if r.size = size then 1 else 0 := by
    simp
  omega

namespace Life

variable {past : List (Moment φ)} {s : System φ} {m : Move φ} {r : Request}

/-- When right-sizing makes a request there is room for one more surface of the size. -/
theorem present_replaced (life : Life Steady past s) (hsizes : Allocator.KeepsSizes φ) (size : Size)
    {gone came : List Surface}
    (h : s.device.Replaces s.available (s.step m).2.available r gone came) :
    (((s.moment m).present r).map Surface.serial).Perm r.existing ∧
      ((s.moment m).present r).countP (Surface.isOwn size (foreign past)) +
        (if r.size = size then 1 else 0) ≤ s.owned.countP (Surface.isOwn size (foreign past)) := by
  obtain ⟨idle, hidle⟩ := h.idle
  obtain ⟨done, more, -, hsupply⟩ := h.sizes
  obtain ⟨rest, hkept⟩ := h.kept.exists_perm_append
  have hnew : ∀ x ∈ came, s.device.built < x.serial := by
    intro x hx
    obtain ⟨_, -, hfresh⟩ := hsupply.fresh hx
    exact hfresh.later
  have hsplit := System.owned_split hidle
  obtain ⟨hpresent, hexisting⟩ := Moment.present_perm (m := s.moment m) life.sound h.existing hsplit
    hnew (life.sound.step m) (System.owned_split hkept.symm)
  refine ⟨hexisting, ?_⟩
  have hroom : came.countP (Surface.isOwn size (foreign past)) +
      (if r.size = size then 1 else 0) ≤ gone.countP (Surface.isOwn size (foreign past)) :=
    h.countP_le hsizes life.idle_own
  have hcount := hpresent.countP_eq (Surface.isOwn size (foreign past))
  have howned := hsplit.countP_eq (Surface.isOwn size (foreign past))
  rw [List.countP_append] at hcount howned
  omega

theorem present_acquired (life : Life Steady past s) (he : r.existing = s.device.alive) :
    (((s.moment m).present r).map Surface.serial).Perm r.existing ∧
      ((s.moment m).present r).Perm s.owned := by
  have hwhole : (s.device.without []).alive = s.device.alive :=
    congrArg Device.alive (Device.releaseAll_without life.sound.alive_nodup []).symm
  have hexisting : r.existing =
      (([] : List Surface).map Surface.serial).reverse ++ (s.device.without []).alive := by
    rw [hwhole]
    exact he
  obtain ⟨hpresent, hserials⟩ := Moment.present_perm (m := s.moment m) life.sound hexisting
    (List.Perm.refl s.owned) (fun x hx => absurd hx List.not_mem_nil) (life.sound.step m)
    (List.Perm.refl _)
  rw [List.append_nil] at hpresent
  exact ⟨hserials, hpresent⟩

end Life

/-- The surfaces of the process are those that exist, and of each size there are never more that
    the pool made than there were out of it at one moment of its life so far. So it is whenever the
    device is asked for a surface in the middle of a move; and there is room for one more of the
    size it is asked for, unless an acquisition asks, when all there are of the size are out. -/
theorem never_more_than_out {past : List (Moment φ)} {s : System φ}
    (life : Life Steady past s) (hsizes : Allocator.KeepsSizes φ) (size : Size) :
    let own := Surface.isOwn size (foreign past)
    ((s.owned.map Surface.serial).Perm s.device.alive ∧ s.device.alive.Nodup) ∧
    WereOut past size (s.owned.countP own) ∧
    ∀ m : Move φ, m.staysOpen = true → ∀ r ∈ (s.moment m).requested,
      let there := (s.moment m).present r
      let asked := if r.size = size then 1 else 0
      ((there.map Surface.serial).Perm r.existing ∧ r.existing.Nodup) ∧
      WereOut past size (there.countP own) ∧
      (WereOut past size (there.countP own + asked) ∨
        m = .acquire r.size ∧ there.countP own ≤ s.out.countP own) := by
  intro own
  have hout : WereOut past size (s.owned.countP own) := life.demanded hsizes size
  refine ⟨⟨life.sound.alive_perm, life.sound.alive_nodup⟩, hout, fun m stays r hr => ?_⟩
  intro there asked
  have hnodup : (there.map Surface.serial).Nodup :=
    Moment.present_nodup (m := s.moment m) life.sound (life.sound.step m)
  obtain ⟨o, ho⟩ := life.current
  rcases System.asked_step life.sound ho m stays hr with ⟨hm, hnone, he⟩ | ⟨gone, came, h⟩
  · obtain ⟨hexisting, hpresent⟩ := life.present_acquired (m := m) he
    have hsame : there.countP own = s.owned.countP own := hpresent.countP_eq own
    refine ⟨⟨hexisting, hexisting.nodup_iff.mp hnodup⟩, hout.mono (Nat.le_of_eq hsame), ?_⟩
    by_cases hs : r.size = size
    · have hidle : s.available.countP own = 0 := countP_of_none_fits (hs ▸ hnone) life.idle_valid
      have howned := s.owned_countP own
      exact .inr ⟨hm, by omega⟩
    · have hzero : asked = 0 := if_neg hs
      exact .inl (hout.mono (by omega))
  · obtain ⟨hexisting, hroom⟩ := life.present_replaced hsizes size h
    have hle : there.countP own + asked ≤ s.owned.countP own := hroom
    exact ⟨⟨hexisting, hexisting.nodup_iff.mp hnodup⟩, hout.mono (by omega), .inl (hout.mono hle)⟩

open Scenario in
/-- Two surfaces are idle and none is out, but two were. Both are replaced now: when the second
    replacement is asked for, the first one is all there is. -/
theorem never_more_than_out_of_two :
    ∃ (past : List (Moment Faults)) (s : System Faults) (r : Request), Life Steady past s ∧
      Allocator.KeepsSizes Faults ∧
      s.owned.countP (Surface.isOwn ⟨8, 8⟩ (foreign past)) = 2 ∧ s.out = [] ∧
      WereOut past ⟨8, 8⟩ 2 ∧ r ∈ (s.moment .shrink).requested ∧ r.existing = [3] ∧
      ((s.moment .shrink).present r).map Surface.serial = [3] ∧
      WereOut past ⟨8, 8⟩
        (((s.moment .shrink).present r).countP (Surface.isOwn ⟨8, 8⟩ (foreign past))) ∧
      (((s.moment .shrink).present r).countP (Surface.isOwn ⟨8, 8⟩ (foreign past)) + 1 = 2) := by
  have opened : Life Steady _ _ := .opened none (.start ({} : Faults) {} {}) rfl
  have first := (opened.move (.acquire ⟨8, 8⟩) rfl ⟨nofun, nofun, nofun⟩).move (.flushed true) rfl
    ⟨nofun, nofun, nofun⟩
  have both := (first.move (.acquire ⟨8, 8⟩) rfl ⟨nofun, nofun, nofun⟩).move (.flushed true) rfl
    ⟨nofun, nofun, nofun⟩
  have one := ((both.move (.submit 1) rfl ⟨nofun, nofun, .submit _ (by decide)⟩).move .registered
    rfl ⟨nofun, nofun, nofun⟩).move (.fire 1) rfl ⟨nofun, nofun, nofun⟩
  have idle := ((one.move (.submit 2) rfl ⟨nofun, nofun, .submit _ (by decide)⟩).move .registered
    rfl ⟨nofun, nofun, nofun⟩).move (.fire 2) rfl ⟨nofun, nofun, nofun⟩
  have grows : ∀ (past : List (Moment Faults)) (s : System Faults) (serial : Nat),
      Steady past (s.moment (.touch serial fun f => { f with oversized := true })) := by
    intro past s serial
    refine ⟨fun n change he f => ?_, fun n change he f hv => ?_, nofun⟩
    all_goals cases he
    · rfl
    · exact hv
  have life := (idle.move (.touch 1 fun f => { f with oversized := true }) rfl (grows _ _ _)).move
    (.touch 2 fun f => { f with oversized := true }) rfl (grows _ _ _)
  obtain ⟨-, hout, hat⟩ := never_more_than_out life Faults.keepsSizes ⟨8, 8⟩
  obtain ⟨-, hthere, -⟩ := hat .shrink rfl ⟨⟨4⟩, ⟨8, 8⟩, [3], .served⟩
    (List.mem_of_getElem? (i := 1) rfl)
  exact ⟨_, _, ⟨⟨4⟩, ⟨8, 8⟩, [3], .served⟩, life, Faults.keepsSizes, by decide, rfl, hout,
    List.mem_of_getElem? (i := 1) rfl, rfl, by decide, hthere, by decide⟩

end SurfaceReuse
