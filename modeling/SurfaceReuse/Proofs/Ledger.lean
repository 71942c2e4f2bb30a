import SurfaceReuse.Proofs.Reservations

set_option autoImplicit false

/-!
The ledger of a life: what its history says about hooks agrees with what is on the desk.
-/

namespace SurfaceReuse

variable {φ : Type}

section History

variable (past : List (Moment φ)) (m : Moment φ)

theorem registered_append : registered (past ++ [m]) = registered past ++ m.registered?.toList := by
  unfold registered
  rw [List.filterMap_append]
  cases h : m.registered? <;> simp [h]

theorem called_append : called (past ++ [m]) = called past ++ m.called?.toList := by
  unfold called
  rw [List.filterMap_append]
  cases h : m.called? <;> simp [h]

theorem mem_registered_append {past : List (Moment φ)} {m : Moment φ} {h : Hook} {serial : Nat} :
    (h, serial) ∈ registered (past ++ [m]) ↔
      (h, serial) ∈ registered past ∨ m.registered? = some (h, serial) := by
  rw [registered_append, List.mem_append, Option.mem_toList]

theorem mem_called_append {past : List (Moment φ)} {m : Moment φ} {n : Nat} :
    n ∈ called (past ++ [m]) ↔ n ∈ called past ∨ m.called? = some n := by
  rw [called_append, List.mem_append, Option.mem_toList]

end History

structure Ledger (past : List (Moment φ)) (d : Desk) : Prop where
  given : ∀ h serial, (h, serial) ∈ registered past → h ∈ d.hooks ∨ h.number ∈ called past
  taken : ∀ h ∈ d.hooks, ∃ serial, (h, serial) ∈ registered past
  uncalled : ∀ h ∈ d.hooks, h.number ∉ called past
  called_le : ∀ n ∈ called past, n ≤ d.registrations
  number_le : ∀ h serial, (h, serial) ∈ registered past → h.number ≤ d.registrations
  once : ∀ h serial h' serial', (h, serial) ∈ registered past → (h', serial') ∈ registered past →
    h.number = h'.number → h = h' ∧ serial = serial'
  booked : ∀ b ∈ d.bookings, ∃ h, (h, b.serial) ∈ registered past ∧ h.id = b.id ∧ h.number = b.hook
  parked : ∀ id n, d.slot id = some (.parked n) → ∃ h, (h, n) ∈ registered past ∧ h.id = id

namespace Ledger

variable {past : List (Moment φ)} {m : Moment φ} {d d' : Desk}

theorem outstanding_iff (ledger : Ledger past d) {h : Hook} {serial : Nat} :
    Outstanding past h serial ↔ (h, serial) ∈ registered past ∧ h ∈ d.hooks := by
  constructor
  · rintro ⟨hr, hn⟩
    exact ⟨hr, (ledger.given h serial hr).resolve_right hn⟩
  · rintro ⟨hr, hm⟩
    exact ⟨hr, ledger.uncalled h hm⟩

theorem uneventful (ledger : Ledger past d) (hr : m.registered? = none)
    (hc : ∀ n, m.called? = some n → n ≤ d.registrations ∧ ∀ h ∈ d.hooks, h.number ≠ n)
    (hhooks : d'.hooks = d.hooks)
    (hle : d'.registrations = d.registrations)
    (hbooked : ∀ b ∈ d'.bookings, b ∈ d.bookings)
    (hparked : ∀ id n, d'.slot id = some (.parked n) →
      d.slot id = some (.parked n) ∨ ∃ b ∈ d.bookings, b.id = id ∧ b.serial = n) :
    Ledger (past ++ [m]) d' := by
  have hreg : ∀ h serial, (h, serial) ∈ registered (past ++ [m]) → (h, serial) ∈ registered past :=
    fun h serial hm => (mem_registered_append.mp hm).resolve_right (by simp [hr])
  constructor
  case given =>
    intro h serial hm
    rw [hhooks]
    exact (ledger.given h serial (hreg h serial hm)).imp_right fun hn =>
      mem_called_append.mpr (.inl hn)
  case taken =>
    intro h hm
    rw [hhooks] at hm
    obtain ⟨serial, hs⟩ := ledger.taken h hm
    exact ⟨serial, mem_registered_append.mpr (.inl hs)⟩
  case uncalled =>
    intro h hm hn
    rw [hhooks] at hm
    rcases mem_called_append.mp hn with hn | hn
    · exact ledger.uncalled h hm hn
    · exact (hc _ hn).2 h hm rfl
  case called_le =>
    intro n hn
    rw [hle]
    rcases mem_called_append.mp hn with hn | hn
    · exact ledger.called_le n hn
    · exact (hc n hn).1
  case number_le =>
    intro h serial hm
    rw [hle]
    exact ledger.number_le h serial (hreg h serial hm)
  case once =>
    intro h serial h' serial' hm hm'
    exact ledger.once h serial h' serial' (hreg h serial hm) (hreg h' serial' hm')
  case booked =>
    intro b hm
    obtain ⟨h, hs, he⟩ := ledger.booked b (hbooked b hm)
    exact ⟨h, mem_registered_append.mpr (.inl hs), he⟩
  case parked =>
    intro id n hs
    rcases hparked id n hs with hs | ⟨b, hb, rfl, rfl⟩
    · obtain ⟨h, hm, he⟩ := ledger.parked id n hs
      exact ⟨h, mem_registered_append.mpr (.inl hm), he⟩
    · obtain ⟨h, hm, he, -⟩ := ledger.booked b hb
      exact ⟨h, mem_registered_append.mpr (.inl hm), he⟩

theorem accept (ledger : Ledger past d) {h : Hook} {serial : Nat}
    (hn : h.number = d.registrations + 1) (hr : m.registered? = some (h, serial))
    (hc : m.called? = none) :
    Ledger (past ++ [m])
      { d with
        slot := Function.update d.slot h.id (some .reserved)
        bookings := ⟨serial, h.id, h.number⟩ :: d.bookings
        hooks := h :: d.hooks
        registrations := d.registrations + 1 } := by
  have hnew : (h, serial) ∈ registered (past ++ [m]) := mem_registered_append.mpr (.inr hr)
  have hold : ∀ k serial', (k, serial') ∈ registered past →
      (k, serial') ∈ registered (past ++ [m]) := fun k serial' hm =>
    mem_registered_append.mpr (.inl hm)
  have hreg : ∀ k serial', (k, serial') ∈ registered (past ++ [m]) →
      (k, serial') ∈ registered past ∨ k = h ∧ serial' = serial := by
    intro k serial' hm
    refine (mem_registered_append.mp hm).imp_right fun he => ?_
    obtain ⟨rfl, rfl⟩ := Prod.mk.inj (Option.some.inj (hr.symm.trans he))
    exact ⟨rfl, rfl⟩
  have hcall : ∀ n, n ∈ called (past ++ [m]) ↔ n ∈ called past := fun n =>
    mem_called_append.trans (or_iff_left (by simp [hc]))
  constructor
  case given =>
    intro k serial' hm
    rw [hcall]
    rcases hreg k serial' hm with hm | ⟨rfl, -⟩
    · exact (ledger.given k serial' hm).imp_left fun hk => List.mem_cons_of_mem h hk
    · exact .inl List.mem_cons_self
  case taken =>
    intro k hk
    rcases List.mem_cons.mp hk with rfl | hk
    · exact ⟨serial, hnew⟩
    · obtain ⟨serial', hs⟩ := ledger.taken k hk
      exact ⟨serial', hold k serial' hs⟩
  case uncalled =>
    intro k hk hn'
    rw [hcall] at hn'
    rcases List.mem_cons.mp hk with rfl | hk
    · have := ledger.called_le _ hn'
      omega
    · exact ledger.uncalled k hk hn'
  case called_le =>
    intro n hn'
    rw [hcall] at hn'
    exact Nat.le_succ_of_le (ledger.called_le n hn')
  case number_le =>
    intro k serial' hm
    rcases hreg k serial' hm with hm | ⟨rfl, -⟩
    · exact Nat.le_succ_of_le (ledger.number_le k serial' hm)
    · exact Nat.le_of_eq hn
  case once =>
    intro k serial₁ k' serial₂ hm hm' he
    rcases hreg k serial₁ hm with hm | ⟨rfl, rfl⟩ <;>
      rcases hreg k' serial₂ hm' with hm' | ⟨rfl, rfl⟩
    · exact ledger.once k serial₁ k' serial₂ hm hm' he
    · have := ledger.number_le k serial₁ hm
      omega
    · have := ledger.number_le k' serial₂ hm'
      omega
    · exact ⟨rfl, rfl⟩
  case booked =>
    intro b hm
    rcases List.mem_cons.mp hm with rfl | hm
    · exact ⟨h, hnew, rfl, rfl⟩
    · obtain ⟨k, hk, he⟩ := ledger.booked b hm
      exact ⟨k, hold k b.serial hk, he⟩
  case parked =>
    intro id n hs
    obtain ⟨k, hk, he⟩ := ledger.parked id n (Desk.of_update hs (by simp)).2
    exact ⟨k, hold k n hk, he⟩

theorem call (ledger : Ledger past d) (tied : d.Tied) {h : Hook} (hm : h ∈ d.hooks)
    (hr : m.registered? = none) (hc : m.called? = some h.number)
    (hhooks : d'.hooks = d.hooks.erase h) (hle : d'.registrations = d.registrations)
    (hbooked : d'.bookings = d.bookings)
    (hparked : ∀ id n, d'.slot id = some (.parked n) → d.slot id = some (.parked n)) :
    Ledger (past ++ [m]) d' := by
  have hreg : ∀ k serial, (k, serial) ∈ registered (past ++ [m]) ↔ (k, serial) ∈ registered past :=
    fun k serial => mem_registered_append.trans (or_iff_left (by simp [hr]))
  have hcall : ∀ n, n ∈ called (past ++ [m]) ↔ n ∈ called past ∨ n = h.number := by
    intro n
    rw [mem_called_append, hc, Option.some.injEq, eq_comm (a := h.number)]
  constructor
  case given =>
    intro k serial hm'
    rw [hhooks, hcall]
    rcases ledger.given k serial ((hreg k serial).mp hm') with hk | hk
    · by_cases he : k = h
      · exact .inr (.inr (congrArg Hook.number he))
      · exact .inl ((List.mem_erase_of_ne he).mpr hk)
    · exact .inr (.inl hk)
  case taken =>
    intro k hk
    rw [hhooks] at hk
    obtain ⟨serial, hs⟩ := ledger.taken k (List.mem_of_mem_erase hk)
    exact ⟨serial, (hreg k serial).mpr hs⟩
  case uncalled =>
    intro k hk hn
    rw [hhooks] at hk
    have hk' := List.mem_of_mem_erase hk
    rcases (hcall _).mp hn with hn | hn
    · exact ledger.uncalled k hk' hn
    · obtain rfl := tied.numbers k hk' h hm hn
      exact tied.nodup.not_mem_erase hk
  case called_le =>
    intro n hn
    rw [hle]
    rcases (hcall n).mp hn with hn | rfl
    · exact ledger.called_le n hn
    · exact tied.number_le h hm
  case number_le =>
    intro k serial hk
    rw [hle]
    exact ledger.number_le k serial ((hreg k serial).mp hk)
  case once =>
    intro k serial k' serial' hk hk'
    exact ledger.once k serial k' serial' ((hreg k serial).mp hk) ((hreg k' serial').mp hk')
  case booked =>
    intro b hb
    rw [hbooked] at hb
    obtain ⟨k, hk, he⟩ := ledger.booked b hb
    exact ⟨k, (hreg k b.serial).mpr hk, he⟩
  case parked =>
    intro id n hs
    obtain ⟨k, hk, he⟩ := ledger.parked id n (hparked id n hs)
    exact ⟨k, (hreg k n).mpr hk, he⟩

theorem step (ledger : Ledger past d) (tied : d.Tied) (h : Desk.Step m d d') :
    Ledger (past ++ [m]) d' := by
  have hnone : m.called? = none → ∀ n, m.called? = some n →
      n ≤ d.registrations ∧ ∀ h ∈ d.hooks, h.number ≠ n := fun hc n hn => absurd hn (by simp [hc])
  cases h with
  | quiet hr hc =>
    exact ledger.uneventful hr hc rfl rfl (fun _ hb => hb) fun _ _ hs => .inl hs
  | poison hp hr hc =>
    exact ledger.uneventful hr (hnone hc) rfl rfl (fun _ hb => hb) fun _ _ hs => .inl hs
  | accept h serial ho hs hn hr hc => exact ledger.accept hn hr hc
  | park b rest slot hm hcall ho hb hs hgone hr hc =>
    refine ledger.uneventful hr (hnone hc) rfl rfl
      (fun b' hm => hb ▸ List.mem_cons_of_mem b hm) fun id n hs => ?_
    dsimp only at hs
    rw [Function.update_apply] at hs
    split at hs
    · rename_i hid
      exact .inr ⟨b, hb ▸ List.mem_cons_self, hid.symm, by simpa using hs⟩
    · exact .inl hs
  | recycle b rest ho hb hs hset hr hc =>
    exact ledger.uneventful hr (hnone hc) rfl rfl
      (fun b' hm => hb ▸ List.mem_cons_of_mem b hm) fun _ _ hs => .inl hs
  | abandon b rest hp hb hgone hgone' hr hc =>
    refine ledger.uneventful hr (hnone hc) rfl rfl
      (fun b' hm => hb ▸ List.mem_cons_of_mem b hm) fun id n hs => ?_
    exact .inl (Desk.of_update hs (by simp)).2
  | unwind b rest hp hb hgone hr hc =>
    exact ledger.uneventful hr (hnone hc) rfl rfl
      (fun b' hm => hb ▸ List.mem_cons_of_mem b hm) fun _ _ hs => .inl hs
  | signal h ho hm hset hr hc =>
    exact ledger.call tied hm hr hc rfl rfl rfl fun id n hs => (Desk.of_update hs (by simp)).2
  | unheard h hp hm hr hc => exact ledger.call tied hm hr hc rfl rfl rfl fun _ _ hs => hs

end Ledger

theorem System.desk_reopened {s : System φ} (sound : s.Sound) (hcalls : s.calls = [])
    (config : Config) (journal : Log.Journal) :
    (s.reopened config journal).desk =
      { poisoned := false
        slot := fun _ => none
        bookings := []
        hooks := []
        registrations := s.registrations } := by
  refine Desk.ext rfl rfl ?_ ?_ rfl
  · change s.calls.filterMap _ = []
    rw [hcalls]
    rfl
  · refine List.filter_eq_nil_iff.mpr fun h hm he => ?_
    have := sound.numbered.generation_le h hm
    have he : h.generation = s.opened + 1 := by simpa [System.reopened] using he
    omega

namespace Life

variable [Allocator φ] {law : List (Moment φ) → Moment φ → Prop} {past : List (Moment φ)}
  {s : System φ}

theorem desk_step (life : Life law past s) (m : Move φ) (stays : m.staysOpen = true) :
    Desk.Step (s.moment m) s.desk (s.step m).2.desk := by
  obtain ⟨o, ho⟩ := life.current
  exact s.desk_step life.sound ho m stays

theorem tied (life : Life law past s) : s.desk.Tied := by
  induction life with
  | @opened s config hs ok =>
    obtain ⟨hc, -, journal, he⟩ := opening ok
    rw [he, System.desk_reopened hs.sound hc]
    exact ⟨by simp, by simp, List.nodup_nil, by simp, by simp, by simp, by simp, by simp,
      List.Pairwise.nil⟩
  | move life m stays _ ih => exact ih.step (life.desk_step m stays)

theorem ledger (life : Life law past s) : Ledger past s.desk := by
  induction life with
  | @opened s config hs ok =>
    obtain ⟨hc, -, journal, he⟩ := opening ok
    have hreg : registered [s.moment (.openPool config)] = [] := rfl
    have hcall : called [s.moment (.openPool config)] = [] := rfl
    rw [he, System.desk_reopened hs.sound hc]
    exact ⟨by simp [hreg], by simp, by simp, by simp [hcall], by simp [hreg], by simp [hreg],
      by simp, by simp⟩
  | move life m stays _ ih => exact ih.step life.tied (life.desk_step m stays)

theorem awaited (life : Life (fun _ m => m.Calm) past s) :
    s.desk.Awaited ∧ s.desk.poisoned = false := by
  induction life with
  | @opened s config hs ok =>
    obtain ⟨hc, -, journal, he⟩ := opening ok
    rw [he, System.desk_reopened hs.sound hc]
    exact ⟨fun id hid => absurd hid (by simp), rfl⟩
  | move life m stays calm ih =>
    exact ih.1.step life.tied ih.2 calm (life.desk_step m stays)

/-- Without panics an id is tracked exactly as long as a hook for it is outstanding. -/
theorem tracked_iff (life : Life (fun _ m => m.Calm) past s) (id : BufferId) :
    s.desk.slot id ≠ none ↔ ∃ h serial, Outstanding past h serial ∧ h.id = id := by
  rw [life.tied.tracked life.awaited.2 id]
  constructor
  · rintro ⟨h, hh, hid⟩
    obtain ⟨serial, hr⟩ := life.ledger.taken h hh
    exact ⟨h, serial, life.ledger.outstanding_iff.mpr ⟨hr, hh⟩, hid⟩
  · rintro ⟨h, serial, hout, hid⟩
    exact ⟨h, (life.ledger.outstanding_iff.mp hout).2, hid⟩

theorem outstanding_apart (life : Life law past s) {h h' : Hook} {serial serial' : Nat}
    (hout : Outstanding past h serial) (hout' : Outstanding past h' serial')
    (hid : h.id = h'.id) : h = h' ∧ serial = serial' := by
  obtain ⟨hr, hh⟩ := life.ledger.outstanding_iff.mp hout
  obtain ⟨hr', hh'⟩ := life.ledger.outstanding_iff.mp hout'
  have he := life.tied.apart h hh h' hh' hid
  exact life.ledger.once h serial h' serial' hr hr' (congrArg Hook.number he)

end Life

end SurfaceReuse
