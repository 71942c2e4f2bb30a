import SurfaceReuse.Proofs.Custody
import SurfaceReuse.Proofs.Life
import SurfaceReuse.System.Lemmas

set_option autoImplicit false

/-!
A law of custody survives every move of a process in which a pool stays open. What an operation
has in hand between two of its steps counts as well; at the end of a move its hands are empty.
-/

namespace SurfaceReuse.System

variable {φ : Type}

/-- The id that the next surface is asked for under. -/
def nextId (s : System φ) : BufferId :=
  s.current.elim .first fun o => o.pool.nextId

/-- The law holds of the surfaces in hand and those of the process together. -/
def Keeps (P : List Surface → Device φ → BufferId → Prop) (s : System φ) (hand : List Surface) :
    Prop :=
  P (hand ++ s.owned) s.device s.nextId

variable [Allocator φ] {P : List Surface → Device φ → BufferId → Prop} (law : Custody P)
  {s : System φ} {hand : List Surface}

include law

theorem keeps_release (x : Surface) (h : s.Keeps P (x :: hand)) : (s.release x).Keeps P hand :=
  law.release h

theorem keeps_hold (x : Surface) (h : s.Keeps P (x :: hand)) : (s.hold x).Keeps P hand := by
  refine law.congr (List.Perm.map _ ?_) h
  change (x :: (hand ++ (s.held ++ s.calls.map Call.surface ++ s.pooled))).Perm
    (hand ++ (s.held ++ [x] ++ s.calls.map Call.surface ++ s.pooled))
  simp only [List.append_assoc, List.singleton_append]
  exact List.perm_middle.symm.trans (List.perm_middle.symm.append_left _)

theorem keeps_takeHeld {s' : System φ} {serial : Nat} {x : Surface}
    (ht : s.takeHeld? serial = some (x, s')) (h : s.Keeps P hand) : s'.Keeps P (x :: hand) := by
  obtain ⟨hx, -, rfl⟩ := takeHeld_eq_some ht
  refine law.congr (List.Perm.map _ ?_) h
  change (hand ++ (s.held ++ s.calls.map Call.surface ++ s.pooled)).Perm
    (x :: (hand ++ (s.held.eraseP (fun y => y.serial == serial) ++ s.calls.map Call.surface ++
      s.pooled)))
  have hp := ((eraseP_perm _ _ _ hx).append_right (s.calls.map Call.surface)).append_right s.pooled
  exact (hp.append_left hand).trans List.perm_middle

theorem keeps_enter (c : Call) {x : Surface} (hc : c.surface.key = x.key)
    (h : s.Keeps P (x :: hand)) : ({ s with calls := c :: s.calls } : System φ).Keeps P hand := by
  refine law.congr ?_ h
  change ((x :: (hand ++ (s.held ++ s.calls.map Call.surface ++ s.pooled))).map Surface.key).Perm
    ((hand ++ (s.held ++ c.surface :: s.calls.map Call.surface ++ s.pooled)).map Surface.key)
  simp only [List.append_assoc, List.map_cons, List.map_append, List.cons_append, hc]
  exact List.perm_middle.symm.trans (List.perm_middle.symm.append_left _)

theorem keeps_return {c : Call} {calls : List Call} (hc : s.calls = c :: calls)
    (h : s.Keeps P hand) : ({ s with calls } : System φ).Keeps P (c.surface :: hand) := by
  refine law.congr (List.Perm.map _ ?_) h
  change (hand ++ (s.held ++ s.calls.map Call.surface ++ s.pooled)).Perm
    (c.surface :: (hand ++ (s.held ++ calls.map Call.surface ++ s.pooled)))
  rw [hc]
  simp only [List.append_assoc, List.map_cons, List.cons_append]
  exact (List.perm_middle.append_left _).trans List.perm_middle

omit [Allocator φ] law in
theorem hands_perm (hand held calls idle parked : List Surface) :
    (hand ++ (held ++ calls ++ (idle ++ parked))).Perm
      (idle ++ (parked ++ (hand ++ (held ++ calls)))) := by
  rw [← List.append_assoc hand, ← List.append_assoc idle]
  exact List.perm_append_comm

theorem keeps_inside {o : OpenPool} (ho : s.current = some o) (h : s.Keeps P hand) :
    (s.inside o).KeepsAll P (hand ++ (s.held ++ s.calls.map Call.surface)) := by
  unfold Keeps nextId owned pooled at h
  rw [ho] at h
  exact law.congr ((hands_perm _ _ _ _ _).map _) h

theorem keeps_leave {o : OpenPool} {l : Locked φ}
    (h : l.KeepsAll P (hand ++ (s.held ++ s.calls.map Call.surface))) :
    (s.leave o l).Keeps P hand :=
  law.congr ((hands_perm _ _ _ _ _).symm.map _) h

theorem keeps_locked {α : Type} (body : OpenPool → Locked φ → Ending α × Locked φ)
    (hb : ∀ (o : OpenPool) (l : Locked φ) (others : List Surface), l.KeepsAll P others →
      (body o l).2.KeepsAll P others)
    (h : s.Keeps P hand) : (s.locked body).2.Keeps P hand := by
  rcases s.locked_cases body with ⟨-, hl⟩ | ⟨o, -, -, hl⟩ | ⟨o, ho, -, hl⟩
  · rw [hl]
    exact h
  · rw [hl]
    exact h
  · rw [hl]
    exact keeps_leave law (hb o _ _ (keeps_inside law ho h))

theorem keeps_acquire (size : Size) (h : s.Keeps P hand) : (s.acquire size).2.Keeps P hand := by
  unfold acquire
  rcases s.locked_cases (fun _ l => l.obtain size) with ⟨-, hl⟩ | ⟨o, -, -, hl⟩ | ⟨o, ho, -, hl⟩
  · rw [hl]
    exact h
  · rw [hl]
    exact h
  · rw [hl]
    have hin := Locked.keepsAll_obtain law size (keeps_inside law ho h)
    cases hr : ((s.inside o).obtain size).1 with
    | ok r =>
      rw [hr] at hin
      exact keeps_enter law (x := r.1) _ rfl (keeps_leave law hin)
    | failed error =>
      rw [hr] at hin
      exact keeps_leave law hin
    | panicked =>
      rw [hr] at hin
      exact keeps_leave law hin

theorem keeps_perform (body : OpenPool → Locked φ → Ending Unit × Locked φ)
    (hb : ∀ (o : OpenPool) (l : Locked φ) (others : List Surface), l.KeepsAll P others →
      (body o l).2.KeepsAll P others)
    (h : s.Keeps P hand) : (s.perform body).2.Keeps P hand :=
  keeps_locked law body hb h

theorem keeps_flushed (ok : Bool) (h : s.Keeps P hand) : (s.flushed ok).2.Keeps P hand := by
  unfold flushed
  split
  · rename_i x cached calls hc
    have hx := keeps_return law hc h
    have hp := keeps_perform law (fun _ l => (.ok (), l.countReused)) (fun _ _ _ hl => hl) hx
    dsimp only
    split
    · exact keeps_release law x hx
    split
    · exact keeps_hold law x hx
    split
    · rename_i heq
      rw [heq] at hp
      exact keeps_hold law x hp
    · rename_i heq
      rw [heq] at hp
      exact keeps_release law x hp
  · exact h

theorem keeps_submit (serial : Nat) (h : s.Keeps P hand) : (s.submit serial).2.Keeps P hand := by
  unfold submit
  split
  · rename_i o x s' ho ht
    have hx := keeps_takeHeld law ht h
    have hp := keeps_locked law (fun _ l => (Ending.ok (l.reserve x.id).1, (l.reserve x.id).2))
      (fun _ l _ hl => Locked.keepsAll_reserve _ hl) hx
    split
    · rename_i s'' heq
      rw [heq] at hp
      exact keeps_enter law (x := x) _ rfl hp
    · rename_i s'' heq
      rw [heq] at hp
      exact keeps_release law x hp
    · rename_i result s'' _ _ heq
      rw [heq] at hp
      exact keeps_release law x hp
  · exact h

theorem keeps_abandon (id : BufferId) (x : Surface) (h : s.Keeps P (x :: hand)) :
    (s.abandon id x).Keeps P hand := by
  unfold abandon
  split
  · exact keeps_release law x h
  · rename_i o ho
    refine keeps_release law x ?_
    exact keeps_leave law (Locked.keepsAll_forget law id (keeps_inside law ho h))

theorem keeps_registered (inUse : s.calls ≠ [] → s.current.isSome = true) (h : s.Keeps P hand) :
    s.registered.2.Keeps P hand := by
  unfold registered
  split
  · rename_i x id n calls hc
    have hx := keeps_return law hc h
    have hopen := inUse (by simp [hc])
    unfold perform
    rcases ({ s with calls } : System φ).locked_cases
      (fun _ l => (Ending.ok (), l.settle id x)) with ⟨hn, hl⟩ | ⟨o, -, -, hl⟩ | ⟨o, ho, -, hl⟩
    · exact absurd hopen (by simp [show s.current = none from hn])
    · rw [hl]
      exact keeps_abandon law id x hx
    · rw [hl]
      exact keeps_leave law (Locked.keepsAll_settle law id x (keeps_inside law ho hx))
  · exact h

theorem keeps_unwind (h : s.Keeps P hand) : s.unwind.2.Keeps P hand := by
  unfold unwind
  split
  · rename_i call calls hc
    exact keeps_release law _ (keeps_return law hc h)
  · exact h

theorem keeps_deliver (hook : Hook) (h : s.Keeps P hand) : (s.deliver hook).Keeps P hand := by
  have hp := keeps_locked law (fun _ l => (Ending.ok (), l.complete hook.id))
    (fun _ _ _ hl => Locked.keepsAll_complete law _ hl) h
  unfold deliver
  split
  · unfold signal
    split
    · rename_i heq
      rw [heq] at hp
      exact hp
    · rename_i heq
      rw [heq] at hp
      exact hp
  · exact h

theorem keeps_fire (hook : Nat) (h : s.Keeps P hand) : (s.fire hook).2.Keeps P hand := by
  unfold fire
  split
  · exact h
  · exact keeps_deliver law _ h

theorem keeps_drop (serial : Nat) (h : s.Keeps P hand) : (s.drop serial).2.Keeps P hand := by
  unfold drop
  split
  · exact h
  · rename_i x s' ht
    exact keeps_release law x (keeps_takeHeld law ht h)

omit [Allocator φ] law in
theorem owned_touch (s : System φ) (serial : Nat) (change : Features → Features) :
    (s.touch serial change).owned = s.owned.map (Surface.touch serial change) := by
  have hcalls : ∀ c : Call, (c.mapSurface (Surface.touch serial change)).surface =
      c.surface.touch serial change := by
    intro c
    cases c <;> rfl
  unfold touch owned pooled
  rw [List.map_append, List.map_append, List.map_map, List.map_map]
  congr 1
  · congr 2
    funext c
    exact hcalls c
  · cases s.current with
    | none => rfl
    | some o =>
      change (o.pool.available.map _ ++ (o.pool.pending.map _).values) =
        (o.pool.available ++ o.pool.pending.values).map _
      rw [Pending.values_map, List.map_append]

omit [Allocator φ] law in
theorem nextId_touch (s : System φ) (serial : Nat) (change : Features → Features) :
    (s.touch serial change).nextId = s.nextId := by
  unfold touch nextId
  cases s.current <;> rfl

theorem keeps_touch (serial : Nat) (change : Features → Features)
    (hid : ∀ f : Features, (change f).id = f.id) (h : s.Keeps P []) :
    (s.touch serial change).Keeps P [] := by
  have hkey : ∀ x : Surface, (x.touch serial change).key = x.key := by
    intro x
    unfold Surface.touch
    split
    · exact congrArg (Prod.mk x.serial) (hid x.toFeatures)
    · rfl
  unfold Keeps
  rw [nextId_touch]
  refine law.congr ?_ h
  rw [List.nil_append, List.nil_append, owned_touch, List.map_map]
  exact List.Perm.of_eq (List.map_congr_left fun x _ => (hkey x).symm)

/-- Surfaces from elsewhere and changes of surfaces are left to the law. -/
theorem keeps_step (m : Move φ) (stays : m.staysOpen = true)
    (inUse : s.calls ≠ [] → s.current.isSome = true)
    (hbuild : ∀ f, m = .build f → (s.build f).2.Keeps P [])
    (htouch : ∀ serial change, m = .touch serial change → (s.touch serial change).Keeps P [])
    (h : s.Keeps P []) : (s.step m).2.Keeps P [] := by
  cases m with
  | openPool config => exact absurd stays (by simp [Move.staysOpen])
  | closePool => exact absurd stays (by simp [Move.staysOpen])
  | acquire size => exact keeps_acquire law size h
  | flushed ok => exact keeps_flushed law ok h
  | submit serial => exact keeps_submit law serial h
  | registered => exact keeps_registered law inUse h
  | unwind => exact keeps_unwind law h
  | fire hook => exact keeps_fire law hook h
  | collect =>
    refine keeps_perform law _ (fun o l others hl => ?_) h
    exact Locked.keepsAll_of_pending (l.collect_pending _) (Locked.keeps_collect law _ hl)
  | shrink =>
    refine keeps_perform law _ (fun o l others hl => ?_) h
    exact Locked.keepsAll_of_pending l.shrink_pending (Locked.keeps_shrink law hl)
  | report =>
    exact keeps_locked law (fun _ l => (Ending.ok l.report.pool.lastReport, l.report))
      (fun _ _ _ hl => hl) h
  | lastReport | availableCount | pendingCount | cachedBytes | isPending id => exact h
  | drop serial => exact keeps_drop law serial h
  | build features => exact hbuild features rfl
  | touch serial change => exact htouch serial change rfl
  | adjust change => exact law.device _ _ h
  | reportUsage usage => exact law.device _ _ h

end SurfaceReuse.System
