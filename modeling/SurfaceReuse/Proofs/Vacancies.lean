import SurfaceReuse.Proofs.Poisoned

set_option autoImplicit false

/-!
Slots that stay empty. A submission reserves a slot, and when its surface has taken the hook it
fills the slot or gives it back. A surface that panics there does neither: the slot stays reserved
for a surface that is gone, and the pool counts it among those that wait.
-/

namespace SurfaceReuse

namespace Pending

variable {α : Type}

/-- The tracked ids under which no value is parked. -/
def vacant (p : Pending α) : List BufferId :=
  (p.slots.filter fun slot => slot.2.value?.isNone).map Prod.fst

theorem mem_vacant_iff (p : Pending α) (id : BufferId) :
    id ∈ p.vacant ↔ p.get? id = some .reserved := by
  rw [← mem_slots_iff]
  constructor
  · intro h
    obtain ⟨⟨k, slot⟩, hs, rfl⟩ := List.mem_map.mp h
    obtain ⟨hs, hnone⟩ := List.mem_filter.mp hs
    cases slot with
    | reserved => exact hs
    | parked value => exact absurd hnone (by simp [Slot.value?])
  · intro h
    exact List.mem_map.mpr ⟨(id, .reserved), List.mem_filter.mpr ⟨h, rfl⟩, rfl⟩

theorem size_eq (p : Pending α) : p.size = p.values.length + p.vacant.length := by
  unfold size values vacant
  rw [List.length_map]
  induction p.slots with
  | nil => rfl
  | cons entry slots ih =>
    obtain ⟨id, slot⟩ := entry
    cases slot with
    | reserved =>
      rw [List.filterMap_cons_none rfl, List.filter_cons_of_pos rfl, List.length_cons,
        List.length_cons, ih]
      omega
    | parked value =>
      have hsome : ((id, .parked value) :: slots).filterMap (fun slot => slot.2.value?) =
          value :: slots.filterMap fun slot => slot.2.value? := rfl
      rw [hsome, List.filter_cons_of_neg (by simp [Slot.value?]), List.length_cons,
        List.length_cons, ih]
      omega

theorem contains_iff_vacant (p : Pending α) (id : BufferId) :
    p.contains id = true ↔ id ∈ p.vacant ∨ ∃ value, p.get? id = some (.parked value) := by
  rw [contains_iff_get?, mem_vacant_iff]
  cases p.get? id with
  | none => simp
  | some slot => cases slot <;> simp

end Pending

variable {φ : Type}

namespace Moment

/-- The id that the move reserved a slot for. -/
def reserved? (m : Moment φ) : Option BufferId :=
  m.registered?.map fun r => r.1.id

/-- The id whose completion reached the pool with the move. A poisoned pool is not reached. -/
def heard? : Moment φ → Option BufferId
  | ⟨before, .fire hook, _, _⟩ =>
    (before.hooks.find? fun h => h.number == hook).bind fun h =>
      if before.current.any fun o => o.generation == h.generation && !o.poisoned then some h.id
      else none
  | _ => none

end Moment

/-- The id was reserved, and since then its completion was not heard, nor did a registration for it
    come back. -/
def Deserted (past : List (Moment φ)) (id : BufferId) : Prop :=
  ∃ earlier m later, past = earlier ++ m :: later ∧ m.reserved? = some id ∧
    ∀ k ∈ later, k.heard? ≠ some id ∧ k.comesBack? ≠ some id

theorem deserted_append {past : List (Moment φ)} {m : Moment φ} {id : BufferId} :
    Deserted (past ++ [m]) id ↔
      m.reserved? = some id ∨ Deserted past id ∧ m.heard? ≠ some id ∧ m.comesBack? ≠ some id := by
  constructor
  · rintro ⟨earlier, k, later, hpast, hk, hlater⟩
    rcases List.eq_nil_or_concat later with rfl | ⟨later, last, rfl⟩
    · obtain ⟨-, hm⟩ := List.append_inj' hpast rfl
      obtain rfl := List.singleton_inj.mp hm
      exact .inl hk
    · rw [List.concat_eq_append] at hpast hlater
      rw [← List.cons_append, ← List.append_assoc] at hpast
      obtain ⟨rfl, hm⟩ := List.append_inj' hpast rfl
      obtain rfl := List.singleton_inj.mp hm
      refine .inr ⟨⟨earlier, k, later, rfl, hk, fun k' hk' => ?_⟩, ?_⟩
      · exact hlater k' (List.mem_append_left _ hk')
      · exact hlater m (List.mem_append_right _ List.mem_cons_self)
  · rintro (hm | ⟨⟨earlier, k, later, rfl, hk, hlater⟩, hlast⟩)
    · exact ⟨past, m, [], rfl, hm, by simp⟩
    · refine ⟨earlier, k, later ++ [m], by simp, hk, fun k' hk' => ?_⟩
      rcases List.mem_append.mp hk' with hk' | hk'
      · exact hlater k' hk'
      · obtain rfl := List.mem_singleton.mp hk'
        exact hlast

theorem deserted_nil (id : BufferId) : ¬Deserted ([] : List (Moment φ)) id := by
  rintro ⟨earlier, m, later, hpast, -⟩
  exact absurd hpast (by simp)

theorem Locked.settle_get? (l : Locked φ) (id k : BufferId) (x : Surface) :
    (l.settle id x).pool.pending.get? k =
      if k = id then (l.pool.pending.get? id).map fun _ => .parked x
      else l.pool.pending.get? k := by
  rw [← Pending.get?_park, settle_eq]
  cases h : l.pool.pending.get? id with
  | none =>
    have hsame : (l.pool.pending.park id x).2 = l.pool.pending := by
      unfold Pending.park
      rw [h]
    rw [hsame]
    exact congrArg (fun p => p.get? k) (l.recycle_pending x)
  | some slot => cases slot <;> rfl

namespace System

variable {s : System φ} {o : OpenPool}

/-- The ids that the pool in use tracks although no surface waits under them. -/
def vacant (s : System φ) : List BufferId :=
  s.current.elim [] fun o => o.pool.pending.vacant

theorem vacant_eq (ho : s.current = some o) : s.vacant = o.pool.pending.vacant := by
  unfold vacant
  rw [ho]
  rfl

theorem mem_vacant_iff (s : System φ) (id : BufferId) :
    id ∈ s.vacant ↔ s.desk.slot id = some .reserved := by
  cases ho : s.current with
  | none =>
    unfold vacant desk
    rw [ho]
    simp
  | some o =>
    rw [vacant_eq ho, Pending.mem_vacant_iff, s.desk_slot ho]
    cases o.pool.pending.get? id with
    | none => simp
    | some slot => cases slot <;> simp [Slot.map]

theorem vacant_of_slot {t : System φ} (h : t.desk.slot = s.desk.slot) (id : BufferId) :
    id ∈ t.vacant ↔ id ∈ s.vacant := by
  rw [mem_vacant_iff, mem_vacant_iff, h]

variable [Allocator φ]

/-- A submission that is accepted adds its id, and no other one does anything. -/
theorem vacant_submit (sound : s.Sound) (ho : s.current = some o) (serial : Nat) (id : BufferId) :
    id ∈ (s.step (.submit serial)).2.vacant ↔
      (s.moment (.submit serial)).reserved? = some id ∨ id ∈ s.vacant := by
  have hquiet : ∀ t : System φ, (s.submit serial).2 = t → t.desk.slot = s.desk.slot →
      (s.moment (.submit serial)).reserved? = none →
      (id ∈ (s.submit serial).2.vacant ↔
        (s.moment (.submit serial)).reserved? = some id ∨ id ∈ s.vacant) := by
    intro t ht hslot hnone
    rw [ht, vacant_of_slot hslot, hnone]
    simp
  change id ∈ (s.submit serial).2.vacant ↔ _
  rcases s.submit_cases serial with ⟨-, h⟩ | ⟨o', x, t, ho', ht, h⟩
  · exact hquiet s (congrArg Prod.snd h) rfl (by
      simp [Moment.reserved?, moment, Moment.registered?, step, h])
  obtain rfl : o = o' := Option.some.inj (ho.symm.trans ho')
  obtain ⟨-, -, rfl⟩ := takeHeld_eq_some ht
  rcases h with ⟨-, h⟩ | ⟨-, -, h⟩ | ⟨-, hc, h⟩
  · exact hquiet _ (congrArg Prod.snd h) rfl (by
      simp [Moment.reserved?, moment, Moment.registered?, step, h])
  · exact hquiet _ (congrArg Prod.snd h) rfl (by
      simp [Moment.reserved?, moment, Moment.registered?, step, h])
  · have hreserved : (s.moment (.submit serial)).reserved? = some x.id := by
      simp [Moment.reserved?, moment, Moment.registered?, step, h, registering]
    have hdesk := desk_registering
      ({ s with held := s.held.eraseP fun y => y.serial == serial } : System φ) ho
      (sound.generation o ho) x hc
    rw [h, hreserved, mem_vacant_iff, hdesk, mem_vacant_iff]
    dsimp only
    rw [Function.update_apply, Option.some.injEq, eq_comm (a := x.id)]
    split
    · rename_i hid
      exact iff_of_true rfl (.inl hid)
    · rename_i hid
      exact (or_iff_right hid).symm

omit [Allocator φ] in
/-- A registration that comes back leaves no vacancy for its id, whether the pool is poisoned or
    not. -/
theorem slot_registered (ho : s.current = some o) {x : Surface} {id : BufferId} {n : Nat}
    {calls : List Call} (hc : s.calls = .registering x id n :: calls) (k : BufferId) :
    k ∈ s.registered.2.vacant ↔ k ∈ s.vacant ∧ k ≠ id := by
  rw [mem_vacant_iff, mem_vacant_iff, s.desk_slot ho]
  rcases registered_cases hc ho with ⟨-, h⟩ | ⟨-, h⟩
  · rw [h, abandon_eq (s := { s with calls }) ho]
    change ((((s.inside o).forget id).pool.pending.get? k).map (Slot.map Surface.serial)) = _ ↔ _
    rw [Locked.forget_get?]
    split
    · rename_i hk
      simp [hk]
    · rename_i hk
      simp [hk, inside]
  · rw [h]
    change ((((s.inside o).settle id x).pool.pending.get? k).map (Slot.map Surface.serial)) = _ ↔ _
    rw [Locked.settle_get?]
    split
    · rename_i hk
      cases (s.inside o).pool.pending.get? id <;> simp [hk, Slot.map]
    · rename_i hk
      simp [hk, inside]

theorem vacant_registered (ho : s.current = some o) (id : BufferId) :
    id ∈ (s.step .registered).2.vacant ↔
      id ∈ s.vacant ∧ (s.moment .registered).comesBack? ≠ some id := by
  change id ∈ s.registered.2.vacant ↔ _
  rcases s.registered_awaited with ⟨hne, h⟩ | ⟨x, k, n, calls, hc⟩
  · have hnone : (s.moment (.registered : Move φ)).comesBack? = none := by
      simp only [moment, Moment.comesBack?]
      cases hs : s.calls with
      | nil => rfl
      | cons c calls =>
        cases c with
        | flushing x cached => rfl
        | registering x id n => exact absurd hs (hne x id n calls)
    rw [h, hnone]
    simp
  · have hback : (s.moment (.registered : Move φ)).comesBack? = some k := by
      simp [moment, Moment.comesBack?, hc, Call.booking?]
    rw [slot_registered ho hc, hback, ne_eq, ne_eq, Option.some.injEq, eq_comm]

theorem vacant_fire (ho : s.current = some o) (hook : Nat) (id : BufferId) :
    id ∈ (s.step (.fire hook)).2.vacant ↔
      id ∈ s.vacant ∧ (s.moment (.fire hook)).heard? ≠ some id := by
  change id ∈ (s.fire hook).2.vacant ↔ _
  cases hf : s.hooks.find? fun h => h.number == hook with
  | none =>
    have hheard : (s.moment (.fire hook)).heard? = none := by
      simp [moment, Moment.heard?, hf]
    have hfire : s.fire hook = (.refused, s) := by
      unfold fire
      rw [hf]
    rw [hfire, hheard]
    simp
  | some h =>
    have hfire : (s.fire hook).2 = ({ s with hooks := s.hooks.erase h } : System φ).deliver h := by
      unfold fire
      rw [hf]
    have hheard : (s.moment (.fire hook)).heard? =
        if o.generation == h.generation && !o.poisoned then some h.id else none := by
      simp [moment, Moment.heard?, hf, ho]
    rw [hfire, hheard]
    rcases ({ s with hooks := s.hooks.erase h } : System φ).deliver_cases h with
      ⟨hne, hd⟩ | ⟨o', ho', hg, ⟨hp, hd⟩ | ⟨hp, hd⟩⟩
    · rw [hd, if_neg (by simp [hne o ho])]
      simp [vacant_of_slot (s := s) (t := { s with hooks := s.hooks.erase h }) rfl]
    · obtain rfl : o = o' := Option.some.inj (ho.symm.trans ho')
      rw [hd, if_neg (by simp [hp])]
      simp [vacant_of_slot (s := s)
        (t := ({ s with hooks := s.hooks.erase h } : System φ).log _) rfl]
    · obtain rfl : o = o' := Option.some.inj (ho.symm.trans ho')
      rw [hd, if_pos (by simp [hg, hp]), mem_vacant_iff, mem_vacant_iff, s.desk_slot ho]
      change (((s.inside o).complete h.id).pool.pending.get? id).map (Slot.map Surface.serial) = _ ↔
        _
      rw [Locked.complete_get?]
      split
      · rename_i hid
        simp [hid]
      · rename_i hid
        simp [inside, Ne.symm hid]

theorem slot_other (m : Move φ) (stays : m.staysOpen = true)
    (hsubmit : ∀ serial, m ≠ .submit serial) (hregistered : m ≠ .registered)
    (hfire : ∀ hook, m ≠ .fire hook) :
    (s.step m).2.desk.slot = s.desk.slot := by
  have hcalm : ∀ t : System φ,
      t.desk = s.desk ∨ (∃ r : Prop, r ∧ t.desk = { s.desk with poisoned := true }) →
        t.desk.slot = s.desk.slot := by
    rintro t (h | ⟨-, -, h⟩)
    · rw [h]
    · rw [h]
  cases m with
  | openPool config => exact absurd stays (by simp [Move.staysOpen])
  | closePool => exact absurd stays (by simp [Move.staysOpen])
  | submit serial => exact absurd rfl (hsubmit serial)
  | registered => exact absurd rfl hregistered
  | fire hook => exact absurd rfl (hfire hook)
  | acquire size => exact hcalm _ ((s.desk_acquire size).imp_right fun h => ⟨_, h⟩)
  | flushed ok => exact congrArg Desk.slot (s.desk_flushed ok)
  | unwind =>
    change s.unwind.2.desk.slot = _
    rcases s.unwind_cases with h | ⟨c, calls, -, h⟩
    · rw [h]
    · rw [h]
      rfl
  | collect =>
    have hkeep := s.desk_perform (fun o l => l.collect o.config.maxAge)
      fun o l => l.collect_pending _
    exact hcalm _ (hkeep.imp_right fun h => ⟨_, h⟩)
  | shrink =>
    have hkeep := s.desk_perform (fun _ l => l.shrink) fun _ l => l.shrink_pending
    exact hcalm _ (hkeep.imp_right fun h => ⟨_, h⟩)
  | report =>
    have hkeep := s.desk_locked (fun _ l => (Ending.ok l.report.pool.lastReport, l.report))
      fun _ _ => rfl
    exact hcalm _ (hkeep.imp_right fun h => ⟨_, h⟩)
  | drop serial => exact congrArg Desk.slot (s.desk_drop serial)
  | touch serial change => exact congrArg Desk.slot (s.desk_touch serial change)
  | _ => rfl

/-- What a move does to the vacancies: a reservation makes one, and a completion that is heard or a
    registration that comes back ends it. -/
theorem vacant_step (sound : s.Sound) (ho : s.current = some o) (m : Move φ)
    (stays : m.staysOpen = true) (id : BufferId) :
    id ∈ (s.step m).2.vacant ↔ (s.moment m).reserved? = some id ∨
      id ∈ s.vacant ∧ (s.moment m).heard? ≠ some id ∧ (s.moment m).comesBack? ≠ some id := by
  cases m with
  | submit serial =>
    have hheard : (s.moment (.submit serial)).heard? = none := rfl
    have hback : (s.moment (.submit serial)).comesBack? = none := rfl
    rw [vacant_submit sound ho, hheard, hback]
    simp
  | registered =>
    have hreserved : (s.moment (.registered : Move φ)).reserved? = none := rfl
    have hheard : (s.moment (.registered : Move φ)).heard? = none := rfl
    rw [vacant_registered ho, hreserved, hheard]
    simp
  | fire hook =>
    have hreserved : (s.moment (.fire hook)).reserved? = none := rfl
    have hback : (s.moment (.fire hook)).comesBack? = none := rfl
    rw [vacant_fire ho, hreserved, hback]
    simp
  | _ =>
    rw [vacant_of_slot (slot_other _ stays (by simp) (by simp) (by simp))]
    simp [moment, Moment.reserved?, Moment.registered?, Moment.heard?, Moment.comesBack?]

end System

/-- If nothing was vacant before a move, the vacancies ever since are what was deserted since. -/
theorem Life.vacant_since [Allocator φ] {law : List (Moment φ) → Moment φ → Prop}
    {past later : List (Moment φ)} {s t : System φ} (life : Life law past s)
    (filled : s.vacant = []) {m : Move φ} (stays : m.staysOpen = true)
    (lifeThen : Life law (past ++ s.moment m :: later) t) (id : BufferId) :
    id ∈ t.vacant ↔ Deserted (s.moment m :: later) id := by
  refine lifeThen.since rfl (P := fun between u =>
    id ∈ u.vacant ↔ Deserted (s.moment m :: between) id) ?_ ?_
  · obtain ⟨o, ho⟩ := life.current
    have hone := @deserted_append _ [] (s.moment m) id
    change id ∈ (s.step m).2.vacant ↔ Deserted ([] ++ [s.moment m]) id
    rw [System.vacant_step life.sound ho m stays, hone, filled]
    simp [deserted_nil]
  · intro between u m' lifeNow stays' _ ih
    obtain ⟨o, ho⟩ := lifeNow.current
    rw [System.vacant_step lifeNow.sound ho m' stays', ih, ← List.cons_append, deserted_append]

/-- A submission that starts when every tracked id has its surface leaves the slot of its own id
    empty in one case alone: its surface panics before the hook was heard of, or a submission in
    between has left the slot like that. It leaves nothing vacant when it ends at once, and its own
    id is not vacant when its surface has taken the hook, whatever happened meanwhile, be it that
    the pool was poisoned. What is vacant is what the pool counts without a surface. -/
theorem vacancy_left_iff_deserted [Allocator φ] {law : List (Moment φ) → Moment φ → Prop}
    {past : List (Moment φ)} {s : System φ} (life : Life law past s) (filled : s.vacant = [])
    (serial : Nat) :
    ((s.moment (.submit serial)).registered? = none → (s.step (.submit serial)).2.vacant = []) ∧
    (∀ hook, (s.moment (.submit serial)).registered? = some (hook, serial) →
      ∀ (later : List (Moment φ)) (t : System φ) (x : Surface) (calls : List Call),
        Life law (past ++ s.moment (.submit serial) :: later) t →
        t.calls = .registering x hook.id hook.number :: calls →
          hook.id ∉ (t.step .registered).2.vacant ∧
          ∀ id, id ∈ (t.step .unwind).2.vacant ↔ Deserted (s.moment (.submit serial) :: later) id) ∧
    ∀ (u : System φ) (o : OpenPool), u.current = some o → o.poisoned = false →
      (u.step .pendingCount).1 = .count (u.parked.length + u.vacant.length) ∧
      ∀ id, (u.step (.isPending id)).1 = .flag true ↔
        id ∈ u.vacant ∨ ∃ x ∈ u.parked, o.pool.pending.get? id = some (.parked x) := by
  obtain ⟨o, ho⟩ := life.current
  refine ⟨fun hnone => ?_, fun hook _ later t x calls lifeThen hc => ⟨?_, fun id => ?_⟩,
    fun u o ho hp => ⟨?_, fun id => ?_⟩⟩
  · refine List.eq_nil_iff_forall_not_mem.mpr fun id hid => ?_
    rw [System.vacant_submit life.sound ho, Moment.reserved?, hnone, filled] at hid
    simp at hid
  · obtain ⟨o', ho'⟩ := lifeThen.current
    intro hid
    exact ((System.slot_registered ho' hc hook.id).mp hid).2 rfl
  · have hslot := System.slot_other (s := t) .unwind rfl (by simp) (by simp) (by simp)
    rw [System.vacant_of_slot hslot]
    exact life.vacant_since filled rfl lifeThen id
  · have hparked : u.parked = o.pool.pending.values := by
      unfold System.parked
      rw [ho]
      rfl
    change u.inspect (fun p => .count p.pending.size) = _
    rw [System.inspect_eq ho, hp, hparked, System.vacant_eq ho, ← Pending.size_eq]
    rfl
  · have hparked : ∀ x, o.pool.pending.get? id = some (.parked x) → x ∈ u.parked := by
      intro x hx
      unfold System.parked
      rw [ho]
      exact (Pending.mem_values_iff _ _).mpr ⟨id, hx⟩
    have hflag : (u.step (.isPending id)).1 = .flag (o.pool.pending.contains id) := by
      change u.inspect (fun p => .flag (p.pending.contains id)) = _
      rw [System.inspect_eq ho, hp]
      rfl
    rw [hflag, Reply.flag.injEq, Pending.contains_iff_vacant, System.vacant_eq ho]
    refine or_congr_right ⟨?_, ?_⟩
    · rintro ⟨x, hx⟩
      exact ⟨x, hparked x hx, hx⟩
    · rintro ⟨x, -, hx⟩
      exact ⟨x, hx⟩

open Scenario in
/-- The hook is called before the surface panics: the slot went with it, and none is vacant. -/
theorem vacancy_left_iff_deserted_of_early_completion :
    ∃ (past later : List (Moment Faults)) (s t : System Faults) (x : Surface),
      Life (fun _ _ => True) past s ∧ s.vacant = [] ∧
      (s.moment (.submit 1)).registered? = some (⟨1, 1, ⟨1⟩⟩, 1) ∧
      Life (fun _ _ => True) (past ++ s.moment (.submit 1) :: later) t ∧
      t.calls = [.registering x ⟨1⟩ 1] ∧ (⟨1⟩ : BufferId) ∉ (t.step .registered).2.vacant ∧
      (⟨1⟩ : BufferId) ∉ (t.step .unwind).2.vacant ∧ (t.step .unwind).2.device.alive = [] := by
  have opened : Life (fun _ _ => True) _ _ := .opened none (.start ({} : Faults) {} {}) rfl
  have held := (opened.move (.acquire ⟨8, 8⟩) rfl trivial).move (.flushed true) rfl trivial
  have early := (held.move (.submit 1) rfl trivial).move (.fire 1) rfl trivial
  have hsplit : ∀ (p : List (Moment Faults)) (a b : Moment Faults),
      p ++ [a] ++ [b] = p ++ a :: [b] := by simp
  rw [hsplit] at early
  obtain ⟨-, hends, -⟩ := vacancy_left_iff_deserted held rfl 1
  obtain ⟨hback, hunwound⟩ := hends ⟨1, 1, ⟨1⟩⟩ rfl _ _ _ [] early rfl
  refine ⟨_, _, _, _, _, held, rfl, rfl, early, rfl, hback, fun hid => ?_, rfl⟩
  rcases (@deserted_append _ [_] _ _).mp ((hunwound ⟨1⟩).mp hid) with hlast | ⟨-, hlast, -⟩
  · exact absurd hlast (by simp [Moment.reserved?, System.moment, Moment.registered?])
  · exact hlast rfl

open Scenario in
/-- The surface panics before its hook was called: it is gone, and its id still counts as one that
    waits. -/
theorem vacancy_left_by_panic :
    ∃ (past : List (Moment Faults)) (s : System Faults), Life (fun _ _ => True) past s ∧
      s.vacant = [] ∧ s.held.map Surface.serial = [1] ∧
      let u := s.run [.submit 1, .unwind]
      u.calls = [] ∧ u.device.alive = [] ∧ u.parked = [] ∧ u.vacant = [⟨1⟩] ∧
        (u.step .pendingCount).1 = .count 1 ∧ (u.step (.isPending ⟨1⟩)).1 = .flag true := by
  have opened : Life (fun _ _ => True) _ _ := .opened none (.start ({} : Faults) {} {}) rfl
  have held := (opened.move (.acquire ⟨8, 8⟩) rfl trivial).move (.flushed true) rfl trivial
  exact ⟨_, _, held, rfl, rfl, rfl, rfl, rfl, rfl, rfl, rfl⟩

end SurfaceReuse
