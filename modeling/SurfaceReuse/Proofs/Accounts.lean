import SurfaceReuse.Proofs.Places
import SurfaceReuse.Proofs.Tally
import SurfaceReuse.Proofs.Waiting

set_option autoImplicit false

/-!
The accounts of a process. Every move keeps the books of the pool in use: a surface that is handed
out counts as a reuse if it was an idle one, and no other move counts as one. Opening a pool is
outside the accounts, for it reports nothing.
-/

namespace SurfaceReuse

variable {φ : Type}

namespace System

variable {s t u : System φ} {o : OpenPool} {n k : Nat}

/-- The books are kept from the one state to the other, with so many reuses, and a panic poisons
    the pool in use. -/
def Accounts (s t : System φ) (reuses : Nat) : Prop :=
  ∃ o o' panics, s.current = some o ∧ t.current = some o' ∧
    (s.inside o).Booked (t.inside o') reuses panics ∧ o'.poisoned = (o.poisoned || panics)

theorem Accounts.trans (h : s.Accounts t n) (h' : t.Accounts u k) : s.Accounts u (n + k) := by
  obtain ⟨o, o', panics, ho, ho', hb, hp⟩ := h
  obtain ⟨o₁, o'', panics', ho₁, ho'', hb', hp'⟩ := h'
  obtain rfl : o' = o₁ := Option.some.inj (ho'.symm.trans ho₁)
  exact ⟨o, o'', _, ho, ho'', hb.trans hb', by rw [hp', hp, Bool.or_assoc]⟩

theorem Accounts.leave {l : Locked φ} (ho : s.current = some o) (hp : o.poisoned = false)
    {panics : Bool} (h : (s.inside o).Booked l n panics) :
    s.Accounts (s.leave { o with poisoned := panics } l) n :=
  ⟨o, _, panics, ho, rfl, h, by rw [hp]; rfl⟩

theorem Accounts.calm {o' : OpenPool} (ho : s.current = some o) (ho' : t.current = some o')
    (hp : o'.poisoned = o.poisoned) (h : (s.inside o).Booked (t.inside o') n false) :
    s.Accounts t n :=
  ⟨o, o', false, ho, ho', h, hp.trans (Bool.or_false _).symm⟩

/-- What has to do with neither the counters nor the log and asks for nothing. -/
theorem Accounts.aside (ho : s.current = some o) (hcurrent : t.current = s.current)
    (hjournal : t.journal = s.journal) (hrequests : t.device.requests = s.device.requests) :
    s.Accounts t 0 :=
  .calm ho (hcurrent.trans ho) rfl (.idle hjournal hrequests rfl rfl rfl)

theorem Accounts.log (ho : s.current = some o) {e : Log.Event} (he : ∀ stats, e ≠ .reported stats) :
    s.Accounts (s.log e) 0 :=
  .calm ho ho rfl ((s.inside o).booked_log he)

theorem Accounts.release (ho : s.current = some o) (x : Surface) : s.Accounts (s.release x) 0 :=
  .aside ho rfl rfl rfl

theorem accounts_locked {α : Type} (ho : s.current = some o)
    (body : OpenPool → Locked φ → Ending α × Locked φ)
    (hb : ∀ (o : OpenPool) (l : Locked φ), l.Booked (body o l).2 0 (body o l).1.isPanic) :
    s.Accounts (s.locked body).2 0 := by
  cases hp : o.poisoned with
  | true =>
    rw [locked_poisoned ho hp]
    exact .aside ho rfl rfl rfl
  | false =>
    rw [locked_open ho hp]
    exact .leave ho hp (hb o _)

theorem accounts_submit (ho : s.current = some o) (serial : Nat) :
    s.Accounts (s.submit serial).2 0 := by
  rcases s.submit_cases serial with ⟨-, h⟩ | ⟨o', x, t, ho', ht, h⟩
  · rw [h]
    exact .aside ho rfl rfl rfl
  · obtain rfl : o = o' := Option.some.inj (ho.symm.trans ho')
    obtain ⟨-, -, rfl⟩ := takeHeld_eq_some ht
    let t : System φ := { s with held := s.held.eraseP fun y => y.serial == serial }
    have htaken : s.Accounts t 0 := .aside ho rfl rfl rfl
    have ht : t.current = some o := ho
    rcases h with ⟨-, h⟩ | ⟨-, -, h⟩ | ⟨-, -, h⟩
    · rw [h]
      exact htaken.trans (.release ht x)
    · rw [h]
      exact (htaken.trans (.log ht (by simp))).trans (.release (s := t.log _) ht x)
    · rw [h]
      exact .calm ho rfl rfl (.idle rfl rfl rfl rfl rfl)

theorem accounts_registered (ho : s.current = some o) : s.Accounts s.registered.2 0 := by
  rcases s.registered_awaited with ⟨-, h⟩ | ⟨x, id, n, calls, hc⟩
  · rw [h]
    exact .aside ho rfl rfl rfl
  rcases registered_cases hc ho with ⟨-, h⟩ | ⟨-, h⟩
  · rw [h, abandon_eq (s := { s with calls }) ho]
    have hforgot : s.Accounts (({ s with calls } : System φ).leave o ((s.inside o).forget id)) 0 :=
      .calm ho rfl rfl ((s.inside o).booked_forget id)
    exact (hforgot.trans (.log rfl (by simp))).trans (.release rfl x)
  · rw [h]
    exact .calm ho rfl rfl ((s.inside o).booked_settle id x)

theorem accounts_fire (ho : s.current = some o) (hook : Nat) : s.Accounts (s.fire hook).2 0 := by
  rcases s.fire_cases hook with h | ⟨h, -, -, hf⟩
  · rw [h]
    exact .aside ho rfl rfl rfl
  rw [hf]
  let t : System φ := { s with hooks := s.hooks.erase h }
  have hcalled : s.Accounts t 0 := .aside ho rfl rfl rfl
  rcases t.deliver_cases h with ⟨-, hd⟩ | ⟨o', ho', -, ⟨-, hd⟩ | ⟨-, hd⟩⟩
  · rw [hd]
    exact hcalled
  · rw [hd]
    exact hcalled.trans (.log ho' (by simp))
  · rw [hd]
    have hdone : t.Accounts (t.leave o' ((t.inside o').complete h.id)) 0 :=
      .calm ho' rfl rfl ((t.inside o').booked_complete h.id)
    exact hcalled.trans hdone

theorem accounts_unwind (ho : s.current = some o) : s.Accounts s.unwind.2 0 := by
  rcases s.unwind_cases with h | ⟨c, calls, -, h⟩
  all_goals
    rw [h]
    exact .aside ho rfl rfl rfl

theorem accounts_drop (ho : s.current = some o) (serial : Nat) :
    s.Accounts (s.drop serial).2 0 := by
  rcases s.drop_cases serial with h | ⟨x, h⟩
  all_goals
    rw [h]
    exact .aside ho rfl rfl rfl

theorem accounts_touch (ho : s.current = some o) (serial : Nat) (change : Features → Features) :
    s.Accounts (s.touch serial change) 0 := by
  have hcurrent : (s.touch serial change).current =
      some { o with pool := o.pool.mapSurfaces (Surface.touch serial change) } := by
    unfold touch
    rw [ho]
    rfl
  exact .calm ho hcurrent rfl (.idle rfl rfl rfl rfl rfl)

/-- Only other entries were added to the log. -/
def Unreported (s t : System φ) : Prop :=
  ∃ entries, t.journal.entries = entries ++ s.journal.entries ∧ Log.reportsIn entries = []

theorem Unreported.refl (s : System φ) : s.Unreported s :=
  ⟨[], rfl, rfl⟩

theorem Unreported.trans (h : s.Unreported t) (h' : t.Unreported u) : s.Unreported u := by
  obtain ⟨entries, he, hn⟩ := h
  obtain ⟨entries', he', hn'⟩ := h'
  refine ⟨entries' ++ entries, by rw [he', he, List.append_assoc], ?_⟩
  unfold Log.reportsIn at hn hn' ⊢
  rw [List.filterMap_append, hn, hn']
  rfl

theorem Unreported.log (s : System φ) {e : Log.Event} (he : ∀ stats, e ≠ .reported stats) :
    s.Unreported (s.log e) :=
  ⟨[_], rfl, Log.reportsIn_of_ne he _⟩

theorem unreported_close (s : System φ) : s.Unreported s.close := by
  unfold close
  split
  · exact .refl s
  · dsimp only
    split
    · exact .refl s
    · exact .log s (by simp)

theorem unreported_startLogging (s : System φ) (l : Logging) :
    s.Unreported (s.startLogging l) := by
  have hinstalled : s.Unreported { s with journal := (s.journal.install l).2 } := by
    unfold Log.Journal.install
    dsimp only
    split
    · exact ⟨[_], rfl, Log.reportsIn_of_ne (by simp) _⟩
    · exact .refl s
  unfold startLogging
  split
  · dsimp only
    split
    · exact hinstalled
    · exact hinstalled.trans (.log _ (by simp))
  · exact .refl s

/-- Opening a pool is no operation on one: it reports nothing and asks for nothing. -/
theorem unreported_openPool (s : System φ) (config : Option Config) :
    s.Unreported (s.openPool config).2 := by
  unfold openPool
  split
  · split
    · exact unreported_close s
    · split
      · exact .refl s
      · exact (s.unreported_startLogging _).trans (unreported_close _)
  · exact .refl s

variable [Allocator φ]

theorem accounts_acquire (ho : s.current = some o) (size : Size) :
    s.Accounts (s.acquire size).2 0 := by
  have hb := (s.inside o).booked_obtain size
  rcases acquire_cases ho size with ⟨-, h⟩ | ⟨hp, ⟨x, cached, hr, h⟩ | ⟨error, hr, h⟩ | ⟨hr, h⟩⟩
  · rw [h]
    exact .log ho (by simp)
  · rw [hr] at hb
    rw [h]
    exact .calm ho rfl rfl hb
  · rw [hr] at hb
    rw [h]
    have hasked : s.Accounts (s.leave o ((s.inside o).obtain size).2) 0 :=
      .calm ho rfl rfl hb
    exact hasked.trans (.log rfl (by simp))
  · rw [hr] at hb
    rw [h]
    exact .leave ho hp hb

/-- The move hands out a surface that its call has marked as an idle one. -/
def Reuses (s : System φ) (m : Move φ) : Prop :=
  ∃ x calls, (s.moment m).handed? = some x ∧ s.calls = .flushing x true :: calls

theorem accounts_flushed (ho : s.current = some o) (ok : Bool) :
    s.Accounts (s.flushed ok).2 1 ∧ s.Reuses (.flushed ok) ∨
      s.Accounts (s.flushed ok).2 0 ∧ ¬s.Reuses (.flushed ok) := by
  rcases s.flushed_awaited ok with ⟨hne, h⟩ | ⟨x, cached, calls, hc⟩
  · rw [h]
    exact .inr ⟨.aside ho rfl rfl rfl, fun ⟨x, calls, _, hc⟩ => hne x true calls hc⟩
  let t : System φ := { s with calls }
  have hreturned : s.Accounts t 0 := .aside ho rfl rfl rfl
  have ht : t.current = some o := ho
  have hreply : ∀ r : Reply, (∀ y, r ≠ .handed y) → (s.flushed ok).1 = r →
      ¬s.Reuses (.flushed ok) := by
    rintro r hr he ⟨y, calls, hy, -⟩
    exact hr y (he.symm.trans (reply_of_handed hy))
  rcases flushed_cases hc ho ok with ⟨-, h⟩ | ⟨-, rfl, h⟩ | ⟨-, -, -, h⟩ | ⟨-, rfl, -, h⟩
  · refine .inr ⟨?_, hreply _ (by simp) (congrArg Prod.fst h)⟩
    rw [h]
    exact (hreturned.trans (.log ht (by simp))).trans (.release (s := t.log _) ht x)
  · refine .inr ⟨?_, fun ⟨y, calls', _, he⟩ => ?_⟩
    · rw [h]
      exact hreturned.trans (.aside ht rfl rfl rfl)
    · rw [hc] at he
      simp at he
  · refine .inr ⟨?_, hreply _ (by simp) (congrArg Prod.fst h)⟩
    rw [h]
    exact hreturned.trans (.release ht x)
  · refine .inl ⟨?_, x, calls, ?_, hc⟩
    · rw [h]
      exact .calm ho rfl rfl (s.inside o).booked_countReused
    · simp [moment, Moment.handed?, step, h]

/-- What a move does to the counters and the log: the books are kept. -/
theorem accounts_step (ho : s.current = some o) (m : Move φ) (stays : m.staysOpen = true) :
    s.Accounts (s.step m).2 1 ∧ s.Reuses m ∨ s.Accounts (s.step m).2 0 ∧ ¬s.Reuses m := by
  have hother : s.Accounts (s.step m).2 0 → (s.moment m).handed? = none →
      s.Accounts (s.step m).2 1 ∧ s.Reuses m ∨ s.Accounts (s.step m).2 0 ∧ ¬s.Reuses m :=
    fun h hn => .inr ⟨h, fun ⟨x, calls, hx, _⟩ => absurd (hn.symm.trans hx) (by simp)⟩
  cases m with
  | openPool config => exact absurd stays (by simp [Move.staysOpen])
  | closePool => exact absurd stays (by simp [Move.staysOpen])
  | flushed ok => exact accounts_flushed ho ok
  | acquire size => exact hother (accounts_acquire ho size) rfl
  | submit serial => exact hother (accounts_submit ho serial) rfl
  | registered => exact hother (accounts_registered ho) rfl
  | unwind => exact hother (accounts_unwind ho) rfl
  | fire hook => exact hother (accounts_fire ho hook) rfl
  | collect => exact hother (accounts_locked ho _ fun o l => l.booked_collect o.config.maxAge) rfl
  | shrink => exact hother (accounts_locked ho _ fun _ l => l.booked_shrink) rfl
  | report =>
    exact hother (accounts_locked ho (fun _ l => (Ending.ok l.report.pool.lastReport, l.report))
      fun _ l => l.booked_report) rfl
  | drop serial => exact hother (accounts_drop ho serial) rfl
  | touch serial change => exact hother (accounts_touch ho serial change) rfl
  | lastReport | availableCount | pendingCount | cachedBytes | isPending id | build features
  | adjust change | reportUsage usage => exact hother (.aside ho rfl rfl rfl) rfl

end System

end SurfaceReuse
