import Mathlib.Data.List.Induction
import SurfaceReuse.Proofs.Ownership
import SurfaceReuse.Scenario.Faults

set_option autoImplicit false

/-!
Completion signals that come one after another. Whatever ids they are for and however often they
repeat, they take the slots of these ids away and make idle what was parked there, in the order of
the first signals and as far as there is room. So the order matters only to who gets the room.
-/

namespace SurfaceReuse

namespace Pending

variable {α : Type}

def parked? (p : Pending α) (id : BufferId) : Option α :=
  (p.get? id).bind Slot.value?

def eraseAll (p : Pending α) (ids : List BufferId) : Pending α :=
  ids.foldl erase p

/-- What is parked under the ids, in the order in which these come up first. -/
def released (p : Pending α) (ids : List BufferId) : List α :=
  ids.eraseDups.filterMap p.parked?

theorem eraseAll_append (p : Pending α) (ids : List BufferId) (id : BufferId) :
    p.eraseAll (ids ++ [id]) = (p.eraseAll ids).erase id := by
  unfold eraseAll
  rw [List.foldl_append]
  rfl

theorem slots_eraseAll (p : Pending α) (ids : List BufferId) :
    (p.eraseAll ids).slots = p.slots.filter fun slot => slot.1 ∉ ids := by
  induction ids using List.reverseRecOn with
  | nil => simp [eraseAll]
  | append_singleton ids id ih =>
    rw [eraseAll_append]
    change (p.eraseAll ids).slots.filter _ = _
    rw [ih, List.filter_filter]
    refine List.filter_congr fun slot _ => ?_
    simp [and_comm]

theorem eraseAll_congr (p : Pending α) {ids ids' : List BufferId} (h : ∀ id, id ∈ ids ↔ id ∈ ids') :
    p.eraseAll ids = p.eraseAll ids' := by
  refine ext ?_
  rw [slots_eraseAll, slots_eraseAll]
  simp only [h]

theorem get?_eraseAll (p : Pending α) (ids : List BufferId) (k : BufferId) :
    (p.eraseAll ids).get? k = if k ∈ ids then none else p.get? k := by
  induction ids using List.reverseRecOn with
  | nil => rfl
  | append_singleton ids id ih =>
    rw [eraseAll_append, get?_erase, ih]
    by_cases hk : k = id
    · simp [hk]
    · simp [hk]

theorem eraseDups_concat (ids : List BufferId) (id : BufferId) :
    (ids ++ [id]).eraseDups = if id ∈ ids then ids.eraseDups else ids.eraseDups ++ [id] := by
  rw [List.eraseDups_append]
  split
  · rename_i h
    simp [List.removeAll, h]
  · rename_i h
    simp [List.removeAll, h, List.eraseDups_cons]

theorem eraseDups_nodup (ids : List BufferId) : ids.eraseDups.Nodup := by
  induction ids using List.reverseRecOn with
  | nil => exact List.nodup_nil
  | append_singleton ids id ih =>
    rw [eraseDups_concat]
    split
    · exact ih
    · rename_i h
      refine List.nodup_append.mpr ⟨ih, List.pairwise_singleton _ _, fun a ha b hb he => ?_⟩
      rw [List.mem_singleton.mp hb] at he
      exact h (List.mem_eraseDups.mp (he ▸ ha))

theorem released_append (p : Pending α) (ids : List BufferId) (id : BufferId) :
    p.released (ids ++ [id]) = p.released ids ++ ((p.eraseAll ids).parked? id).toList := by
  unfold released parked?
  rw [eraseDups_concat, get?_eraseAll]
  split
  · exact (List.append_nil _).symm
  · rw [List.filterMap_append]
    cases h : (p.get? id).bind Slot.value? <;> simp [h]

theorem released_perm (p : Pending α) {ids ids' : List BufferId} (h : ∀ id, id ∈ ids ↔ id ∈ ids') :
    (p.released ids).Perm (p.released ids') := by
  refine List.Perm.filterMap _ ?_
  rw [List.perm_ext_iff_of_nodup (eraseDups_nodup ids) (eraseDups_nodup ids')]
  simpa using h

/-- What the signals release and can be used again. -/
def usable (p : Pending Surface) (ids : List BufferId) : List Surface :=
  (p.released ids).filter fun x => x.valid

end Pending

theorem take_concat {α : Type} (n : Nat) (xs : List α) (x : α) :
    (xs ++ [x]).take n = xs.take n ++ if xs.length < n then [x] else [] := by
  rw [List.take_append]
  congr 1
  split
  · rename_i h
    exact List.take_of_length_le (Nat.sub_pos_of_lt h)
  · rename_i h
    rw [Nat.sub_eq_zero_of_le (Nat.le_of_not_lt h)]
    rfl

variable {φ : Type}

namespace Locked

theorem recycle_device (l : Locked φ) (x : Surface) :
    (l.recycle x).device =
      if x.valid = true ∧ l.pool.isFull = false then l.device else l.device.release x := by
  unfold recycle
  cases x.valid <;> cases l.pool.isFull <;> rfl

theorem recycle_nextId (l : Locked φ) (x : Surface) :
    (l.recycle x).pool.nextId = l.pool.nextId := by
  unfold recycle
  cases x.valid <;> cases l.pool.isFull <;> rfl

def completeAll (l : Locked φ) (ids : List BufferId) : Locked φ :=
  ids.foldl complete l

def room (l : Locked φ) : Nat :=
  l.pool.capacity - l.pool.available.length

/-- What signals for the ids make of a state. -/
structure Completed (l l' : Locked φ) (ids : List BufferId) : Prop where
  pending : l'.pool.pending = l.pool.pending.eraseAll ids
  available : l'.pool.available =
    l.pool.available ++ (l.pool.pending.usable ids).take l.room
  capacity : l'.pool.capacity = l.pool.capacity
  nextId : l'.pool.nextId = l.pool.nextId
  /-- Everything that does not become idle goes down. -/
  dropped : ∃ dropped, l'.device = l.device.releaseAll dropped ∧
    (dropped ++ (l.pool.pending.usable ids).take l.room).Perm (l.pool.pending.released ids)

variable {l l' : Locked φ} {ids : List BufferId} {id : BufferId}

theorem Completed.unfound (h : l.Completed l' ids)
    (hnone : (l.pool.pending.eraseAll ids).parked? id = none) {m : Locked φ}
    (hpending : m.pool.pending = l'.pool.pending.erase id)
    (havailable : m.pool.available = l'.pool.available)
    (hcapacity : m.pool.capacity = l'.pool.capacity) (hnextId : m.pool.nextId = l'.pool.nextId)
    (hdevice : m.device = l'.device) : l.Completed m (ids ++ [id]) := by
  have hreleased : l.pool.pending.released (ids ++ [id]) = l.pool.pending.released ids := by
    rw [Pending.released_append, hnone]
    exact List.append_nil _
  have husable : l.pool.pending.usable (ids ++ [id]) = l.pool.pending.usable ids :=
    congrArg (List.filter fun x : Surface => x.valid) hreleased
  obtain ⟨dropped, hdropped, hperm⟩ := h.dropped
  constructor
  case pending => rw [hpending, h.pending, Pending.eraseAll_append]
  case available => rw [havailable, h.available, husable]
  case capacity => exact hcapacity.trans h.capacity
  case nextId => exact hnextId.trans h.nextId
  case dropped => exact ⟨dropped, hdevice.trans hdropped, by rw [hreleased, husable]; exact hperm⟩

theorem Completed.room_iff (h : l.Completed l' ids)
    (hroom : l.pool.available.length ≤ l.pool.capacity) :
    l'.pool.isFull = false ↔ (l.pool.pending.usable ids).length < l.room := by
  rw [Pool.isFull_eq_false_iff, h.available, h.capacity, List.length_append, List.length_take]
  unfold room
  omega

theorem take_usable_append {x : Surface} {n : Nat} {p : Pending Surface}
    (hx : (p.eraseAll ids).parked? id = some x) :
    (p.usable (ids ++ [id])).take n = (p.usable ids).take n ++
      if x.valid = true ∧ (p.usable ids).length < n then [x] else [] := by
  unfold Pending.usable
  rw [Pending.released_append, hx, List.filter_append]
  cases hv : x.valid with
  | false => simp [hv]
  | true => simpa [hv] using take_concat n _ x

theorem Completed.found (h : l.Completed l' ids)
    (hroom : l.pool.available.length ≤ l.pool.capacity) {x : Surface}
    (hx : (l.pool.pending.eraseAll ids).parked? id = some x) :
    l.Completed ((l'.withPending (l'.pool.pending.erase id)).recycle x) (ids ++ [id]) := by
  let m := l'.withPending (l'.pool.pending.erase id)
  have hreleased : l.pool.pending.released (ids ++ [id]) = l.pool.pending.released ids ++ [x] := by
    rw [Pending.released_append, hx]
    rfl
  have hpending : (m.recycle x).pool.pending = l.pool.pending.eraseAll (ids ++ [id]) := by
    rw [recycle_pending, Pending.eraseAll_append, ← h.pending]
    rfl
  have hcapacity : (m.recycle x).pool.capacity = l.pool.capacity :=
    (Pool.capacity_fixture.recycle m x).trans h.capacity
  have hnextId : (m.recycle x).pool.nextId = l.pool.nextId := (recycle_nextId m x).trans h.nextId
  have hfull : m.pool.isFull = false ↔ _ := h.room_iff hroom
  have htake := take_usable_append (n := l.room) hx
  obtain ⟨dropped, hdropped, hperm⟩ := h.dropped
  have hdevice := recycle_device m x
  rcases recycle_cases m x with ⟨hv, hf, hidle⟩ | ⟨hgone, hidle, -⟩
  · have hplace := And.intro hv (hfull.mp hf)
    rw [if_pos hplace] at htake
    rw [if_pos ⟨hv, hf⟩] at hdevice
    refine ⟨hpending, ?_, hcapacity, hnextId, dropped, hdevice.trans hdropped, ?_⟩
    · rw [hidle, htake, ← List.append_assoc]
      exact congrArg (fun xs => xs ++ [x]) h.available
    · rw [hreleased, htake, ← List.append_assoc]
      exact hperm.append_right [x]
  · have hnot : ¬(x.valid = true ∧ m.pool.isFull = false) := fun ⟨hv, hf⟩ =>
      hgone.elim (fun hv' => absurd (hv.symm.trans hv') (by simp))
        fun hf' => absurd (hf.symm.trans hf') (by simp)
    rw [if_neg fun hplace => hnot ⟨hplace.1, hfull.mpr hplace.2⟩, List.append_nil] at htake
    rw [if_neg hnot] at hdevice
    have hgoes : (m.recycle x).device = l.device.releaseAll (dropped ++ [x]) := by
      rw [hdevice, Device.releaseAll, List.foldl_append]
      exact congrArg (fun d : Device φ => d.release x) hdropped
    refine ⟨hpending, ?_, hcapacity, hnextId, dropped ++ [x], hgoes, ?_⟩
    · rw [hidle, htake]
      exact h.available
    · rw [hreleased, htake, List.append_assoc]
      refine (List.perm_append_comm.append_left dropped).trans ?_
      rw [← List.append_assoc]
      exact hperm.append_right [x]

theorem Completed.step (h : l.Completed l' ids)
    (hroom : l.pool.available.length ≤ l.pool.capacity) (id : BufferId) :
    l.Completed (l'.complete id) (ids ++ [id]) := by
  have hparked : (l.pool.pending.eraseAll ids).parked? id =
      (l'.pool.pending.get? id).bind Slot.value? := by
    rw [h.pending]
    rfl
  rw [complete_eq]
  cases hs : l'.pool.pending.get? id with
  | none =>
    rw [hs] at hparked
    have hsame := Pending.erase_of_not_contains (Pending.not_contains_of_get? hs)
    exact h.unfound hparked hsame.symm rfl rfl rfl rfl
  | some slot =>
    rw [hs] at hparked
    cases slot with
    | reserved => exact h.unfound hparked rfl rfl rfl rfl rfl
    | parked x => exact h.found hroom hparked

theorem completed (l : Locked φ) (hroom : l.pool.available.length ≤ l.pool.capacity)
    (ids : List BufferId) : l.Completed (l.completeAll ids) ids := by
  induction ids using List.reverseRecOn with
  | nil =>
    have husable : (l.pool.pending.usable []).take l.room = [] := List.take_nil
    refine ⟨rfl, ?_, rfl, rfl, [], rfl, ?_⟩
    · rw [husable]
      exact (List.append_nil _).symm
    · rw [husable]
      exact List.Perm.refl _
  | append_singleton ids id ih =>
    have happend : l.completeAll (ids ++ [id]) = (l.completeAll ids).complete id := by
      rw [completeAll, List.foldl_append]
      rfl
    rw [happend]
    exact ih.step hroom id

end Locked

namespace System

variable {s : System φ} {o : OpenPool}

/-- Completion signals one after another, with nothing in between. -/
def signalAll (s : System φ) (ids : List BufferId) : System φ :=
  ids.foldl signal s

theorem signal_open (ho : s.current = some o) (hp : o.poisoned = false) (id : BufferId) :
    s.signal id = s.leave o ((s.inside o).complete id) := by
  unfold signal
  rw [locked_open ho hp, leave_ok hp]

theorem signalAll_eq (ho : s.current = some o) (hp : o.poisoned = false) (ids : List BufferId) :
    s.signalAll ids = s.leave o ((s.inside o).completeAll ids) := by
  induction ids using List.reverseRecOn with
  | nil => exact (leave_inside ho).symm
  | append_singleton ids id ih =>
    let l := (s.inside o).completeAll ids
    have hlast : s.signalAll (ids ++ [id]) = (s.leave o l).signal id := by
      rw [signalAll, List.foldl_append, ← ih]
      rfl
    have hall : (s.inside o).completeAll (ids ++ [id]) = l.complete id := by
      rw [Locked.completeAll, List.foldl_append]
      rfl
    rw [hlast, hall]
    exact signal_open (s := s.leave o l) rfl hp id

end System

/-- Signals for any ids, one after another, take the slots of these ids away. The valid surfaces
    among those that were parked there stand behind the idle ones then, in the order of the first
    signals and up to the cap, and the others go down. So signals for the same ids in another
    order and number leave the same slots and equally many idle surfaces, and the same ones if there
    is room for all. -/
theorem completions_commute {s : System φ} {o : OpenPool} (ho : s.current = some o)
    (hp : o.poisoned = false) (hroom : o.pool.available.length ≤ o.pool.capacity)
    (ids : List BufferId) :
    (∃ p journal dropped,
      s.signalAll ids =
        { s with
          current := some { o with pool := p }
          device := s.device.releaseAll dropped
          journal } ∧
      (∀ k, p.pending.get? k = if k ∈ ids then none else o.pool.pending.get? k) ∧
      p.available = (o.pool.available ++ o.pool.pending.usable ids).take o.pool.capacity ∧
      (dropped ++ (o.pool.pending.usable ids).take
        (o.pool.capacity - o.pool.available.length)).Perm (o.pool.pending.released ids) ∧
      (s.device.alive.Nodup → ∀ x ∈ dropped, x.serial ∉ (s.signalAll ids).device.alive) ∧
      p.capacity = o.pool.capacity ∧ p.nextId = o.pool.nextId) ∧
    ∀ ids', (∀ id, id ∈ ids ↔ id ∈ ids') → ∃ p p',
      (s.signalAll ids).current = some { o with pool := p } ∧
      (s.signalAll ids').current = some { o with pool := p' } ∧
      p'.pending = p.pending ∧
      p.available.length = min o.pool.capacity
        (o.pool.available.length + (o.pool.pending.usable ids).length) ∧
      p'.available.length = p.available.length ∧
      (o.pool.available.length + (o.pool.pending.usable ids).length ≤ o.pool.capacity →
        p'.available.Perm p.available) := by
  have hall := fun ids => (s.inside o).completed hroom ids
  have hcurrent : ∀ ids, (s.signalAll ids).current =
      some { o with pool := ((s.inside o).completeAll ids).pool } := by
    intro ids
    rw [System.signalAll_eq ho hp]
    rfl
  have havailable : ∀ ids, ((s.inside o).completeAll ids).pool.available =
      (o.pool.available ++ o.pool.pending.usable ids).take o.pool.capacity := by
    intro ids
    rw [(hall ids).available, List.take_append, List.take_of_length_le hroom]
    rfl
  refine ⟨?_, fun ids' hsame => ?_⟩
  · obtain ⟨dropped, hdropped, hperm⟩ := (hall ids).dropped
    have hdevice : ((s.inside o).completeAll ids).device = s.device.releaseAll dropped := hdropped
    refine ⟨((s.inside o).completeAll ids).pool, ((s.inside o).completeAll ids).journal, dropped,
      ?_, ?_, havailable ids, hperm, ?_, (hall ids).capacity, (hall ids).nextId⟩
    · rw [System.signalAll_eq ho hp, ← hdevice]
      rfl
    · intro k
      rw [(hall ids).pending]
      exact o.pool.pending.get?_eraseAll ids k
    · intro halive x hx
      rw [System.signalAll_eq ho hp]
      change x.serial ∉ ((s.inside o).completeAll ids).device.alive
      rw [hdevice, Device.mem_alive_releaseAll halive]
      exact fun h => h.2 (List.mem_map_of_mem hx)
  · have hperm : (o.pool.pending.usable ids).Perm (o.pool.pending.usable ids') :=
      (o.pool.pending.released_perm hsame).filter _
    refine ⟨_, _, hcurrent ids, hcurrent ids', ?_, ?_, ?_, fun hfits => ?_⟩
    · rw [(hall ids').pending, (hall ids).pending]
      exact (Pending.eraseAll_congr _ hsame).symm
    · rw [havailable, List.length_take, List.length_append]
    · rw [havailable, havailable, List.length_take, List.length_take, List.length_append,
        List.length_append, hperm.length_eq]
    · have hfits' := hperm.length_eq ▸ hfits
      rw [← List.length_append] at hfits hfits'
      rw [havailable, havailable, List.take_of_length_le hfits, List.take_of_length_le hfits']
      exact hperm.symm.append_left _

open Scenario in
/-- There is room for one of two surfaces, and the first signal decides which it is. A reservation,
    an id that is not tracked and a repeated signal make no difference. -/
theorem completions_commute_of_two :
    ∃ (s : System Faults) (o : OpenPool), s.current = some o ∧ o.poisoned = false ∧
      o.pool.available.length ≤ o.pool.capacity ∧
      (o.pool.pending.released [⟨2⟩, ⟨3⟩, ⟨9⟩, ⟨1⟩, ⟨2⟩]).map Surface.serial = [2, 1] ∧
      (s.signalAll [⟨2⟩, ⟨3⟩, ⟨9⟩, ⟨1⟩, ⟨2⟩]).available.map Surface.serial = [2] ∧
      (s.signalAll [⟨1⟩, ⟨9⟩, ⟨2⟩, ⟨3⟩]).available.map Surface.serial = [1] ∧
      ∃ p p',
        (s.signalAll [⟨2⟩, ⟨3⟩, ⟨9⟩, ⟨1⟩, ⟨2⟩]).current = some { o with pool := p } ∧
        (s.signalAll [⟨1⟩, ⟨9⟩, ⟨2⟩, ⟨3⟩]).current = some { o with pool := p' } ∧
        p'.pending = p.pending ∧ p'.available.length = p.available.length := by
  let x : Surface := ⟨{ id := ⟨1⟩, size := ⟨8, 8⟩ }, 1⟩
  let y : Surface := ⟨{ id := ⟨2⟩, size := ⟨8, 8⟩ }, 2⟩
  let pending : Pending Surface :=
    ⟨[(⟨3⟩, .reserved), (⟨2⟩, .parked y), (⟨1⟩, .parked x)], by decide⟩
  let o : OpenPool :=
    { generation := 1, config := { maxSurfaces := 1 }, pool := { capacity := 1, pending } }
  let s : System Faults :=
    { current := some o, device := { allocator := {}, built := 2, alive := [2, 1] }, opened := 1 }
  have hreleased :
      (o.pool.pending.released [⟨2⟩, ⟨3⟩, ⟨9⟩, ⟨1⟩, ⟨2⟩]).map Surface.serial = [2, 1] := by decide
  obtain ⟨p, p', hp, hp', hpending, -, hlength, -⟩ :=
    (completions_commute (s := s) (o := o) rfl rfl (by decide) [⟨2⟩, ⟨3⟩, ⟨9⟩, ⟨1⟩, ⟨2⟩]).2
      [⟨1⟩, ⟨9⟩, ⟨2⟩, ⟨3⟩] (by simp; tauto)
  exact ⟨s, o, rfl, rfl, by decide, hreleased, by decide, by decide, p, p', hp, hp', hpending,
    hlength⟩

end SurfaceReuse
