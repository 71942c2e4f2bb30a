import SurfaceReuse.Proofs.Ledger
import SurfaceReuse.Scenario.Faults

set_option autoImplicit false

/-!
Surfaces that wait for their writes. From its submission on, a surface waits until its hook is
called, and as long as it waits nobody gets hold of it.
-/

namespace SurfaceReuse

variable {φ : Type}

namespace Desk

variable {m : Moment φ} {d d' : Desk}

/-- The surface that got the hook is on its way into a slot, or in the slot. -/
def Waiting (d : Desk) (h : Hook) (serial : Nat) : Prop :=
  ⟨serial, h.id, h.number⟩ ∈ d.bookings ∨ h ∈ d.hooks ∧ d.slot h.id = some (.parked serial)

/-- The innermost submission comes to its second half too late: its hook was called, and since
    then its id was reserved again. -/
def Overtaken (d : Desk) : Prop :=
  ∃ b rest, d.bookings = b :: rest ∧ d.slot b.id ≠ none ∧ ∀ h ∈ d.hooks, h.number ≠ b.hook

/-- The ways in which a waiting surface can be lost. -/
def Loses (d : Desk) (m : Moment φ) : Prop :=
  m.reply = .panicked ∨ d.poisoned = true ∨ d.Overtaken

/-- A waiting surface waits on until a call of its hook settles it, unless it is lost. -/
theorem Waiting.step {h : Hook} {serial : Nat} (waiting : d.Waiting h serial) (tied : d.Tied)
    (hown : ∀ k ∈ d.hooks, k.number = h.number → k = h) (hs : Step m d d') :
    d'.Waiting h serial ∨ (h ∉ d'.hooks ∧ m.Settled serial) ∨
      (d.Loses m ∧ (h ∈ d'.hooks → serial ∉ m.after.device.alive)) := by
  cases hs with
  | quiet => exact .inl waiting
  | poison => exact .inl waiting
  | accept k serial' ho hk hn =>
    refine .inl (waiting.imp (List.mem_cons_of_mem _) fun ⟨hm, hp⟩ => ?_)
    have hne : h.id ≠ k.id := fun he => by simp [he, hk] at hp
    exact ⟨List.mem_cons_of_mem k hm, (Function.update_of_ne hne _ _).trans hp⟩
  | park b rest slot hmove hcall ho hb hslot hgone =>
    rcases waiting with hm | ⟨hm, hp⟩
    · rw [hb] at hm
      rcases List.mem_cons.mp hm with rfl | hm
      · by_cases hh : h ∈ d.hooks
        · exact .inl (.inr ⟨hh, Function.update_self _ _ _⟩)
        · have hlate : d.Overtaken := ⟨_, rest, hb, by simp [hslot], fun k hk hn =>
            hh (hown k hk hn ▸ hk)⟩
          exact .inr (.inr ⟨.inr (.inr hlate), fun hh' => absurd hh' hh⟩)
      · exact .inl (.inl hm)
    · by_cases he : h.id = b.id
      · have hlate : d.Overtaken := by
          refine ⟨b, rest, hb, by simp [hslot], fun k hk hn => ?_⟩
          have hr := tied.empty ho b (hb ▸ List.mem_cons_self) k hk hn
          rw [← he, hp] at hr
          exact absurd hr (by simp)
        rw [he] at hp
        have hgone' := hgone serial (Option.some.inj (hslot.symm.trans hp))
        exact .inr (.inr ⟨.inr (.inr hlate), fun _ => hgone'⟩)
      · exact .inl (.inr ⟨hm, (Function.update_of_ne he _ _).trans hp⟩)
  | recycle b rest ho hb hslot hset =>
    rcases waiting with hm | hp
    · rw [hb] at hm
      rcases List.mem_cons.mp hm with rfl | hm
      · exact .inr (.inl ⟨fun hh => (tied.tracked ho h.id).mpr ⟨h, hh, rfl⟩ hslot, hset⟩)
      · exact .inl (.inl hm)
    · exact .inl (.inr hp)
  | abandon b rest hpoisoned hb hgone hgone' =>
    rcases waiting with hm | ⟨hm, hp⟩
    · rw [hb] at hm
      rcases List.mem_cons.mp hm with rfl | hm
      · exact .inr (.inr ⟨.inr (.inl hpoisoned), fun _ => hgone⟩)
      · exact .inl (.inl hm)
    · by_cases he : h.id = b.id
      · exact .inr (.inr ⟨.inr (.inl hpoisoned), fun _ => hgone' serial (he ▸ hp)⟩)
      · exact .inl (.inr ⟨hm, (Function.update_of_ne he _ _).trans hp⟩)
  | unwind b rest hpanic hb hgone =>
    rcases waiting with hm | hp
    · rw [hb] at hm
      rcases List.mem_cons.mp hm with rfl | hm
      · exact .inr (.inr ⟨.inl hpanic, fun _ => hgone⟩)
      · exact .inl (.inl hm)
    · exact .inl (.inr hp)
  | signal k ho hk hset =>
    rcases waiting with hm | ⟨hm, hp⟩
    · exact .inl (.inl hm)
    · by_cases he : h = k
      · subst he
        exact .inr (.inl ⟨tied.nodup.not_mem_erase, hset serial hp⟩)
      · have hne : h.id ≠ k.id := fun hid => he (tied.apart h hm k hk hid)
        exact .inl (.inr ⟨(List.mem_erase_of_ne he).mpr hm,
          (Function.update_of_ne hne _ _).trans hp⟩)
  | unheard k hpoisoned hk =>
    rcases waiting with hm | ⟨hm, hp⟩
    · exact .inl (.inl hm)
    · by_cases he : h = k
      · subst he
        exact .inr (.inr ⟨.inr (.inl hpoisoned), fun hh => absurd hh tied.nodup.not_mem_erase⟩)
      · exact .inl (.inr ⟨(List.mem_erase_of_ne he).mpr hm, hp⟩)

theorem Step.waiting {h : Hook} {serial : Nat} (hs : Step m d d')
    (hr : m.registered? = some (h, serial)) : d'.Waiting h serial := by
  cases hs with
  | accept k serial' ho hk hn hr' =>
    obtain ⟨rfl, rfl⟩ := Prod.mk.inj (Option.some.inj (hr'.symm.trans hr))
    exact .inl List.mem_cons_self
  | _ => simp_all

theorem Step.hooks {h : Hook} (hs : Step m d d') (hh : h ∈ d'.hooks) :
    h ∈ d.hooks ∨ ∃ serial, m.registered? = some (h, serial) := by
  cases hs with
  | accept k serial ho hk hn hr =>
    rcases List.mem_cons.mp hh with rfl | hh
    · exact .inr ⟨serial, hr⟩
    · exact .inl hh
  | signal | unheard => exact .inl (List.mem_of_mem_erase hh)
  | _ => exact .inl hh

end Desk

theorem Ledger.old_hook {past : List (Moment φ)} {m : Moment φ} {d d' : Desk}
    (ledger : Ledger (past ++ [m]) d') (hs : Desk.Step m d d') {h : Hook} {serial : Nat}
    (hr : (h, serial) ∈ registered (past ++ [m])) (hnew : m.registered? ≠ some (h, serial))
    (hh : h ∈ d'.hooks) : h ∈ d.hooks := by
  refine (hs.hooks hh).resolve_right fun ⟨serial', hreg⟩ => ?_
  have hlater := mem_registered_append.mpr (Or.inr (a := (h, serial') ∈ registered past) hreg)
  obtain ⟨-, rfl⟩ := ledger.once _ _ _ _ hr hlater rfl
  exact hnew hreg

/-- A hook is given to a surface that the caller held, under the surface's own id. -/
theorem System.held_of_registered [Allocator φ] {s : System φ} {m : Move φ} {h : Hook}
    {serial : Nat} (hr : (s.moment m).registered? = some (h, serial)) :
    m = .submit serial ∧ ∃ x ∈ s.held, x.serial = serial ∧ x.id = h.id := by
  cases m with
  | submit serial' =>
    rcases s.submit_cases serial' with ⟨-, he⟩ | ⟨o, x, t, ho, ht, he⟩
    · simp [moment, Moment.registered?, step, he] at hr
    · obtain ⟨hx, hxs, rfl⟩ := takeHeld_eq_some ht
      rcases he with ⟨-, he⟩ | ⟨-, -, he⟩ | ⟨-, -, he⟩
      · simp [moment, Moment.registered?, step, he] at hr
      · simp [moment, Moment.registered?, step, he] at hr
      · simp only [moment, Moment.registered?, step, he, registering, List.head?_cons,
          Option.map_some, Option.some.injEq, Prod.mk.injEq] at hr
        obtain ⟨rfl, rfl⟩ := hr
        exact ⟨rfl, x, List.mem_of_find?_eq_some hx, hxs, rfl⟩
  | _ => exact absurd hr (by simp [moment, Moment.registered?])

theorem System.fire_of_called [Allocator φ] {s : System φ} {m : Move φ} {n : Nat}
    (h : (s.moment m).called? = some n) : m = .fire n := by
  cases m with
  | fire hook =>
    rcases s.fire_cases hook with he | ⟨k, -, -, he⟩
    · simp [moment, Moment.called?, step, he] at h
    · simp only [moment, Moment.called?, step, he, Option.some.injEq] at h
      rw [h]
  | _ => exact absurd h (by simp [moment, Moment.called?])

theorem System.booking_mem {s : System φ} {b : Booking} (hb : b ∈ s.desk.bookings) :
    ∃ x, .registering x b.id b.hook ∈ s.calls ∧ x.serial = b.serial := by
  obtain ⟨c, hc, he⟩ := List.mem_filterMap.mp hb
  cases c with
  | flushing x cached => exact absurd he (by simp [Call.booking?])
  | registering x id n =>
    obtain rfl := Option.some.inj he
    exact ⟨x, hc, rfl⟩

theorem System.parked_mem {s : System φ} {id : BufferId} {n : Nat}
    (hs : s.desk.slot id = some (.parked n)) :
    ∃ o x, s.current = some o ∧ o.pool.pending.get? id = some (.parked x) ∧ x.serial = n ∧
      x ∈ s.parked := by
  cases ho : s.current with
  | none =>
    unfold desk at hs
    rw [ho] at hs
    exact absurd hs (by simp)
  | some o =>
    obtain ⟨x, hg, hx⟩ := (s.get?_of_slot ho).2.2 n hs
    refine ⟨o, x, rfl, hg, hx, ?_⟩
    unfold parked
    rw [ho]
    exact (Pending.mem_values_iff _ _).mpr ⟨id, hg⟩

theorem System.mem_of_waiting {s : System φ} {h : Hook} {serial : Nat}
    (hw : s.desk.Waiting h serial) :
    ∃ y ∈ s.calls.map Call.surface ++ s.parked, y.serial = serial := by
  rcases hw with hb | ⟨-, hp⟩
  · obtain ⟨x, hc, hx⟩ := System.booking_mem hb
    exact ⟨x, List.mem_append_left _ (List.mem_map_of_mem hc), hx⟩
  · obtain ⟨-, x, -, -, hx, hm⟩ := System.parked_mem hp
    exact ⟨x, List.mem_append_right _ hm, hx⟩

theorem System.reply_of_handed [Allocator φ] {s : System φ} {ok : Bool} {x : Surface}
    (h : (s.moment (.flushed ok)).handed? = some x) : (s.flushed ok).1 = .handed x := by
  simp only [moment, Moment.handed?, step] at h
  split at h
  · rename_i heq
    simp_all
  · exact absurd h (by simp)

/-- A surface that is handed out was the innermost call's, and is the caller's from then on. -/
theorem System.flushed_of_handed [Allocator φ] {s : System φ} {m : Move φ} {x : Surface}
    (h : (s.moment m).handed? = some x) :
    ∃ ok cached calls, m = .flushed ok ∧ s.calls = .flushing x cached :: calls ∧
      x ∈ (s.step m).2.held := by
  cases m with
  | flushed ok =>
    have hreply := reply_of_handed h
    suffices hsuff : ∃ cached calls, s.calls = .flushing x cached :: calls ∧
        x ∈ (s.flushed ok).2.held from by
      obtain ⟨cached, calls, hc, hx⟩ := hsuff
      exact ⟨ok, cached, calls, rfl, hc, hx⟩
    revert hreply
    unfold flushed
    split
    · rename_i y cached calls hc
      have hlast : ∀ t : System φ, Reply.handed y = .handed x →
          ∃ cached calls, s.calls = .flushing x cached :: calls ∧ x ∈ (t.hold y).held := by
        intro t he
        obtain rfl := Reply.handed.inj he
        exact ⟨cached, calls, hc, List.mem_append_right _ (List.mem_singleton.mpr rfl)⟩
      dsimp only
      split
      · exact fun he => absurd he (by simp)
      split
      · exact hlast _
      split
      · exact hlast _
      · rename_i reply t hne heq
        intro he
        exact absurd ((congrArg Prod.fst heq).trans he) (perform_ne_handed _ _ x)
    · exact fun he => absurd he (by simp)
  | _ => exact absurd h (by simp [moment, Moment.handed?])

namespace Life

variable [Allocator φ] {law : List (Moment φ) → Moment φ → Prop} {past : List (Moment φ)}
  {s : System φ}

theorem registered_le (life : Life law past s) {h : Hook} {serial : Nat}
    (hr : (h, serial) ∈ registered past) : serial ≤ s.device.built := by
  induction life with
  | opened config hs ok => exact absurd hr (List.not_mem_nil)
  | @move _ s life m stays _ ih =>
    have hgrown := life.sound.grown_step m stays
    rcases mem_registered_append.mp hr with hr | hr
    · exact Nat.le_trans (ih hr) hgrown.1
    · obtain ⟨-, x, hx, rfl, -⟩ := System.held_of_registered hr
      exact Nat.le_trans (life.sound.serial_le (System.mem_owned_of_held hx)) hgrown.1

/-- Until its hook is called a submitted surface waits, or it does not exist any more. -/
theorem waiting (life : Life law past s) {h : Hook} {serial : Nat}
    (hr : (h, serial) ∈ registered past) (hh : h ∈ s.desk.hooks) :
    s.desk.Waiting h serial ∨ serial ∉ s.device.alive := by
  induction life with
  | opened config hs ok => exact absurd hr (List.not_mem_nil)
  | @move past s life m stays lawful ih =>
    have hs := life.desk_step m stays
    by_cases hnew : (s.moment m).registered? = some (h, serial)
    · exact .inl (hs.waiting hnew)
    · have hr' := (mem_registered_append.mp hr).resolve_right hnew
      have hold := (Life.move life m stays lawful).ledger.old_hook hs hr hnew hh
      have hown : ∀ k ∈ s.desk.hooks, k.number = h.number → k = h := fun k hk he =>
        life.tied.numbers k hk h hold he
      rcases ih hr' hold with hw | hgone
      · rcases hw.step life.tied hown hs with hw | ⟨hn, -⟩ | ⟨-, hgone⟩
        · exact .inl hw
        · exact absurd hh hn
        · exact .inr (hgone hh)
      · exact .inr fun halive =>
          hgone ((life.sound.grown_step m stays).2 serial halive (life.registered_le hr'))

/-- No surface that the caller holds or that is idle has a hook that was not called. -/
theorem not_outstanding (life : Life law past s) {x : Surface} (hx : x ∈ s.held ++ s.available)
    (h : Hook) : ¬Outstanding past h x.serial := by
  intro hout
  obtain ⟨hr, hh⟩ := life.ledger.outstanding_iff.mp hout
  rcases life.waiting hr hh with hw | hgone
  · obtain ⟨y, hy, he⟩ := System.mem_of_waiting hw
    exact life.sound.apart hx hy he.symm
  · have hmem : x ∈ s.owned := s.owned_perm.mem_iff.mpr (List.mem_append_left _ hx)
    exact hgone (life.sound.mem_alive hmem)

end Life

/-- A surface that gets among the idle ones had all its hooks called before, the one of its last
    submission included. So neither an idle surface nor one that an acquisition hands out nor one
    that the caller holds has a hook that is still to be called. -/
theorem idle_only_after_completion [Allocator φ]
    {law : List (Moment φ) → Moment φ → Prop} {past : List (Moment φ)} {s : System φ}
    (life : Life law past s) :
    (∀ earlier m later, past = earlier ++ m :: later →
      (∀ x ∈ m.after.available, ∀ h, (h, x.serial) ∈ registered (earlier ++ [m]) →
        h.number ∈ called (earlier ++ [m])) ∧
      ∀ x, m.handed? = some x → ∀ h, ¬Outstanding (earlier ++ [m]) h x.serial) ∧
    ∀ x ∈ s.held ++ s.available, ∀ h, ¬Outstanding past h x.serial := by
  refine ⟨fun earlier m later hpast => ⟨fun x hx h hr => ?_, fun x hx h => ?_⟩,
    fun x hx h => life.not_outstanding hx h⟩
  · by_contra hn
    exact (life.upto hpast).not_outstanding (List.mem_append_right _ hx) h ⟨hr, hn⟩
  · have hm := life.moment_eq (hpast ▸ List.mem_append_right _ List.mem_cons_self)
    rw [← hm] at hx
    have hheld : x ∈ m.after.held := by
      obtain ⟨-, -, -, -, -, hheld⟩ := System.flushed_of_handed hx
      rw [← hm]
      exact hheld
    exact (life.upto hpast).not_outstanding (List.mem_append_left _ hheld) h

open Scenario in
/-- A surface is idle again after its second round under one id. -/
theorem idle_only_after_second_completion :
    ∃ (past : List (Moment Faults)) (s : System Faults), Life (fun _ _ => True) past s ∧
      s.available.map Surface.serial = [1] ∧ (registered past).length = 2 ∧
      ∀ x ∈ s.held ++ s.available, ∀ h, ¬Outstanding past h x.serial := by
  have opened : Life (fun _ (_ : Moment Faults) => True) _ _ :=
    .opened none (.start {} {} {}) rfl
  have made := (opened.move (.acquire ⟨8, 8⟩) rfl trivial).move (.flushed true) rfl trivial
  have first := (made.move (.submit 1) rfl trivial).move .registered rfl trivial
  have taken := ((first.move (.fire 1) rfl trivial).move (.acquire ⟨8, 8⟩) rfl trivial).move
    (.flushed true) rfl trivial
  have second := (taken.move (.submit 1) rfl trivial).move (.fire 2) rfl trivial
  have life := second.move .registered rfl trivial
  exact ⟨_, _, life, rfl, rfl, (idle_only_after_completion life).2⟩

end SurfaceReuse
