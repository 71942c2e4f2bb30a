import SurfaceReuse.Proofs.Plain
import SurfaceReuse.Scenario.Faults
import SurfaceReuse.System.Lemmas

set_option autoImplicit false

/-!
Observing a pool changes nothing. Two runs go alike if one of them has reports and questions
about the pool in between that the other has not, at any depth, and if surfaces and the resource
cache tell them different amounts of memory. All that may differ is what statistics show.
-/

namespace SurfaceReuse

open Allocator (Behaviour)

variable {φ : Type} [Allocator φ]

def OpenPool.plain (o : OpenPool) : OpenPool :=
  { o with pool := o.pool.plain }

def Call.plain : Call → Call :=
  Call.mapSurface Surface.plain

def Reply.plain : Reply → Reply
  | .handed x => .handed x.plain
  | reply => reply

theorem Surface.plain_comp_touch (serial : Nat) {f k : Features → Features}
    (hk : ∀ a : Features, (k a).plain = (f a.plain).plain) :
    plain ∘ touch serial k = (fun x => (x.touch serial f).plain) ∘ plain := by
  funext x
  have hserial : x.plain.serial = x.serial := rfl
  simp only [Function.comp_apply, touch, hserial]
  split
  · exact congrArg (fun a => (⟨a, x.serial⟩ : Surface)) (hk x.toFeatures)
  · rfl

namespace System

/-- A process without all that only statistics show. What is left are the idle and the waiting
    surfaces in their order, the next id, the requests that the device got, the surfaces that
    exist, and what the caller, the calls in progress and the hooks are about. -/
def plain (s : System φ) : System Behaviour where
  current := s.current.map OpenPool.plain
  device := s.device.plain
  held := s.held.map Surface.plain
  calls := s.calls.map Call.plain
  hooks := s.hooks
  opened := s.opened
  registrations := s.registrations

/-- What a move has come to, without all that only statistics show. -/
def outcome (r : Reply × System φ) : Reply × System Behaviour :=
  (r.1.plain, r.2.plain)

end System

namespace Move

/-- Whether the move only asks about the pool, or tells how full the resource cache is. -/
def observes : Move φ → Bool
  | .report | .lastReport | .availableCount | .pendingCount | .cachedBytes | .isPending _ => true
  | .reportUsage _ => true
  | _ => false

/-- Whether the move is one of the pool's operations, or lets go of a surface. -/
def operates : Move φ → Bool
  | .openPool _ | .closePool | .acquire _ | .flushed _ | .submit _ | .registered | .unwind => true
  | .fire _ | .collect | .shrink | .drop _ => true
  | _ => false

/-- The same move in two runs. What foreign code changes may differ in what only statistics show
    of it. -/
inductive Alike : Move φ → Move φ → Prop where
  | operation {m : Move φ} (h : m.operates = true) : Alike m m
  | touch (serial : Nat) {f g : Features → Features}
      (h : ∀ a b : Features, a.plain = b.plain → (f a).plain = (g b).plain) :
      Alike (.touch serial f) (.touch serial g)
  | build {a b : Features} (h : a.plain = b.plain) : Alike (.build a) (.build b)
  | adjust {f g : φ → φ} (h : ∀ a b : φ, Allocator.plain a = Allocator.plain b →
      Allocator.plain (f a) = Allocator.plain (g b)) : Alike (.adjust f) (.adjust g)

theorem Alike.observes {m m' : Move φ} (h : m.Alike m') :
    m.observes = false ∧ m'.observes = false := by
  cases h with
  | operation h =>
    cases m with
    | report | lastReport | availableCount | pendingCount | cachedBytes | isPending id
    | reportUsage usage => exact absurd h (by simp [operates])
    | _ => exact ⟨rfl, rfl⟩
  | touch | build | adjust => exact ⟨rfl, rfl⟩

/-- The same moves in two runs, apart from those that observe. -/
inductive Aligned : List (Move φ) → List (Move φ) → Prop where
  | nil : Aligned [] []
  | both {m m' : Move φ} {ms ms' : List (Move φ)} (h : m.Alike m')
      (rest : Aligned ms ms') : Aligned (m :: ms) (m' :: ms')
  | left {m : Move φ} {ms ms' : List (Move φ)} (h : m.observes = true) (rest : Aligned ms ms') :
      Aligned (m :: ms) ms'
  | right {m : Move φ} {ms ms' : List (Move φ)} (h : m.observes = true) (rest : Aligned ms ms') :
      Aligned ms (m :: ms')

end Move

namespace System

/-- What the moves of a run come to, one after the other, without those that observe. -/
def course (s : System φ) : List (Move φ) → List (Reply × System φ)
  | [] => []
  | m :: ms =>
    if m.observes then (s.step m).2.course ms else s.step m :: (s.step m).2.course ms

@[simp] theorem log_plain (s : System φ) (e : Log.Event) : (s.log e).plain = s.plain := rfl

@[simp] theorem release_plain (s : System φ) (x : Surface) :
    (s.release x).plain = s.plain.release x.plain := rfl

@[simp] theorem hold_plain (s : System φ) (x : Surface) :
    (s.hold x).plain = s.plain.hold x.plain := by
  simp [plain, hold]

@[simp] theorem leave_plain (s : System φ) (o : OpenPool) (l : Locked φ) :
    (s.leave o l).plain = s.plain.leave o.plain l.plain := rfl

variable {s t : System φ}

section Same

variable (h : s.plain = t.plain)

include h

/-- Both have a pool in use, of the same plain form, or neither has one. -/
theorem current_alike :
    (s.current = none ∧ t.current = none) ∨
      ∃ o p, s.current = some o ∧ t.current = some p ∧ o.plain = p.plain ∧
        (s.inside o).plain = (t.inside p).plain := by
  have hcurrent : s.current.map OpenPool.plain = t.current.map OpenPool.plain :=
    congrArg System.current h
  have hdevice : s.device.plain = t.device.plain := congrArg System.device h
  cases hs : s.current with
  | none =>
    cases ht : t.current with
    | none => exact .inl ⟨rfl, rfl⟩
    | some p => simp [hs, ht] at hcurrent
  | some o =>
    cases ht : t.current with
    | none => simp [hs, ht] at hcurrent
    | some p =>
      have hop : o.plain = p.plain := by simpa [hs, ht] using hcurrent
      refine .inr ⟨o, p, rfl, rfl, hop, ?_⟩
      have hpool : o.pool.plain = p.pool.plain := congrArg OpenPool.pool hop
      change (⟨o.pool.plain, s.device.plain, {}⟩ : Locked Behaviour) =
        ⟨p.pool.plain, t.device.plain, {}⟩
      rw [hpool, hdevice]

theorem calls_alike : s.calls.map Call.plain = t.calls.map Call.plain :=
  congrArg System.calls h

theorem withCalls_alike {calls calls' : List Call}
    (hc : calls.map Call.plain = calls'.map Call.plain) :
    ({ s with calls } : System φ).plain = ({ t with calls := calls' } : System φ).plain := by
  change ({ s.plain with calls := calls.map Call.plain } : System Behaviour) =
    { t.plain with calls := calls'.map Call.plain }
  rw [h, hc]

theorem withHook_alike {calls calls' : List Call}
    (hc : calls.map Call.plain = calls'.map Call.plain) (hook : Hook) :
    ({ s with calls, hooks := hook :: s.hooks, registrations := hook.number } : System φ).plain =
      ({ t with
          calls := calls'
          hooks := hook :: t.hooks
          registrations := hook.number } : System φ).plain := by
  change ({ s.plain with
      calls := calls.map Call.plain
      hooks := hook :: s.plain.hooks
      registrations := hook.number } : System Behaviour) =
    { t.plain with
      calls := calls'.map Call.plain
      hooks := hook :: t.plain.hooks
      registrations := hook.number }
  rw [h, hc]

theorem withHeld_alike {held held' : List Surface}
    (hh : held.map Surface.plain = held'.map Surface.plain) :
    ({ s with held } : System φ).plain = ({ t with held := held' } : System φ).plain := by
  change ({ s.plain with held := held.map Surface.plain } : System Behaviour) =
    { t.plain with held := held'.map Surface.plain }
  rw [h, hh]

theorem leave_alike {o p : OpenPool} {l l' : Locked φ} (ho : o.plain = p.plain)
    (hl : l.plain = l'.plain) : (s.leave o l).plain = (t.leave p l').plain := by
  rw [leave_plain, leave_plain, h, ho, hl]

/-- The same section under the lock goes alike in both, or there is no pool in either. -/
theorem locked_alike {α : Type} {R : α → α → Prop}
    {f g : OpenPool → Locked φ → Ending α × Locked φ}
    (hb : ∀ (o p : OpenPool) (l l' : Locked φ), o.config = p.config → l.plain = l'.plain →
      Locked.Alike R (f o l) (g p l')) :
    (s.locked f = (.absent, s) ∧ t.locked g = (.absent, t)) ∨
      ∃ r r' s' t', s.locked f = (.ended r, s') ∧ t.locked g = (.ended r', t') ∧
        r.Alike R r' ∧ s'.plain = t'.plain := by
  rcases current_alike h with ⟨hs, ht⟩ | ⟨o, p, hs, ht, hop, hinside⟩
  · unfold locked
    rw [hs, ht]
    exact .inl ⟨rfl, rfl⟩
  have hpoisoned : o.poisoned = p.poisoned := congrArg (fun o => o.poisoned) hop
  have hconfig : o.config = p.config := congrArg (fun o => o.config) hop
  cases hp : p.poisoned with
  | true =>
    exact .inr ⟨_, _, _, _, locked_poisoned hs (hpoisoned.trans hp) _, locked_poisoned ht hp _,
      .failed _, h⟩
  | false =>
    obtain ⟨hending, hstate⟩ := hb o p _ _ hconfig hinside
    refine .inr ⟨_, _, _, _, locked_open hs (hpoisoned.trans hp) _, locked_open ht hp _, hending,
      leave_alike h ?_ hstate⟩
    rw [hending.isPanic]
    exact congrArg
      (fun o : OpenPool => { o with poisoned := (g p (t.inside p)).1.isPanic }) hop

theorem perform_alike {f g : OpenPool → Locked φ → Ending Unit × Locked φ}
    (hb : ∀ (o p : OpenPool) (l l' : Locked φ), o.config = p.config → l.plain = l'.plain →
      Locked.Alike (fun _ _ => True) (f o l) (g p l')) :
    ∃ r s' t', s.perform f = (r, s') ∧ t.perform g = (r, t') ∧ s'.plain = t'.plain := by
  unfold perform
  rcases locked_alike h hb with ⟨hs, ht⟩ | ⟨r, r', s', t', hs, ht, hending, hstate⟩
  · rw [hs, ht]
    exact ⟨.refused, s, t, rfl, rfl, h⟩
  · rw [hs, ht]
    cases hending with
    | ok _ => exact ⟨.done, s', t', rfl, rfl, hstate⟩
    | failed error => exact ⟨.failed error, s', t', rfl, rfl, hstate⟩
    | panicked => exact ⟨.panicked, s', t', rfl, rfl, hstate⟩

theorem maintain_alike {f g : OpenPool → Locked φ → Ending Unit × Locked φ}
    (hb : ∀ (o p : OpenPool) (l l' : Locked φ), o.config = p.config → l.plain = l'.plain →
      Locked.Alike (fun _ _ => True) (f o l) (g p l')) :
    outcome (s.perform f) = outcome (t.perform g) := by
  obtain ⟨r, s', t', hs, ht, hstate⟩ := perform_alike h hb
  rw [hs, ht]
  exact congrArg (Prod.mk _) hstate

theorem acquire_alike (size : Size) : outcome (s.acquire size) = outcome (t.acquire size) := by
  unfold acquire
  rcases locked_alike h (f := fun _ l => l.obtain size) (g := fun _ l => l.obtain size)
      fun _ _ _ _ _ hl => Locked.obtain_alike hl size with
    ⟨hs, ht⟩ | ⟨r, r', s', t', hs, ht, hending, hstate⟩
  · rw [hs, ht]
    exact congrArg (Prod.mk _) h
  rw [hs, ht]
  cases hending with
  | @ok a b hx =>
    obtain ⟨x, cached⟩ := a
    obtain ⟨y, cached'⟩ := b
    obtain ⟨hxy, rfl⟩ := hx
    refine congrArg (Prod.mk _) (withCalls_alike hstate ?_)
    have hrested : (x.withFeatures x.rested).plain = (y.withFeatures y.rested).plain :=
      congrArg (fun x : Surface => x.withFeatures x.rested) hxy
    rw [List.map_cons, List.map_cons, calls_alike hstate]
    exact congrArg (fun x => Call.flushing x cached :: _) hrested
  | failed error => exact congrArg (Prod.mk _) hstate
  | panicked => exact congrArg (Prod.mk _) hstate

/-- The innermost calls of both have the same plain form, or there are none. -/
theorem call_alike :
    (s.calls = [] ∧ t.calls = []) ∨ ∃ c d calls calls', s.calls = c :: calls ∧
      t.calls = d :: calls' ∧ c.plain = d.plain ∧
        ({ s with calls } : System φ).plain = ({ t with calls := calls' } : System φ).plain := by
  have hcalls := calls_alike h
  cases hs : s.calls with
  | nil =>
    cases ht : t.calls with
    | nil => exact .inl ⟨rfl, rfl⟩
    | cons d calls' => simp [hs, ht] at hcalls
  | cons c calls =>
    cases ht : t.calls with
    | nil => simp [hs, ht] at hcalls
    | cons d calls' =>
      rw [hs, ht, List.map_cons, List.map_cons] at hcalls
      obtain ⟨hcd, hrest⟩ := List.cons.inj hcalls
      exact .inr ⟨c, d, calls, calls', rfl, rfl, hcd, withCalls_alike h hrest⟩

theorem flushed_alike (ok : Bool) : outcome (s.flushed ok) = outcome (t.flushed ok) := by
  unfold flushed
  rcases call_alike h with ⟨hs, ht⟩ | ⟨c, d, calls, calls', hs, ht, hcd, hreturned⟩
  · rw [hs, ht]
    exact congrArg (Prod.mk _) h
  rw [hs, ht]
  cases c with
  | registering x id n =>
    cases d with
    | registering y id' n' => exact congrArg (Prod.mk _) h
    | flushing y cached => exact absurd hcd (by simp [Call.plain, Call.mapSurface])
  | flushing x cached =>
    cases d with
    | registering y id n => exact absurd hcd (by simp [Call.plain, Call.mapSurface])
    | flushing y cached' =>
      obtain ⟨hxy, rfl⟩ := Call.flushing.inj hcd
      have hid : x.id = y.id := congrArg (fun x => x.id) hxy
      cases ok with
      | false => simp [outcome, Reply.plain, hid, hreturned, hxy]
      | true =>
        cases cached with
        | false => simp [outcome, Reply.plain, hreturned, hxy]
        | true =>
          obtain ⟨r, s', t', hs', ht', hstate⟩ := perform_alike hreturned
            (f := fun _ l => (.ok (), l.countReused)) (g := fun _ l => (.ok (), l.countReused))
            fun _ _ _ _ _ hl => ⟨.ok trivial, hl⟩
          simp only [Bool.not_true, Bool.false_eq_true, if_false]
          rw [hs', ht']
          cases r <;> simp [outcome, Reply.plain, hstate, hxy]

theorem takeHeld_alike (serial : Nat) :
    (s.takeHeld? serial = none ∧ t.takeHeld? serial = none) ∨
      ∃ x y s' t', s.takeHeld? serial = some (x, s') ∧ t.takeHeld? serial = some (y, t') ∧
        x.plain = y.plain ∧ s'.plain = t'.plain := by
  have hheld : s.held.map Surface.plain = t.held.map Surface.plain := congrArg System.held h
  have hcomp : (fun x : Surface => x.serial == serial) ∘ Surface.plain =
      fun x => x.serial == serial := rfl
  have hfind := congrArg (List.find? fun x => x.serial == serial) hheld
  have hrest := congrArg (List.eraseP fun x => x.serial == serial) hheld
  rw [List.find?_map, List.find?_map, hcomp] at hfind
  rw [List.eraseP_map, List.eraseP_map, hcomp] at hrest
  unfold takeHeld?
  cases hs : s.held.find? fun x => x.serial == serial with
  | none =>
    cases ht : t.held.find? fun x => x.serial == serial with
    | none => exact .inl ⟨rfl, rfl⟩
    | some y => simp [hs, ht] at hfind
  | some x =>
    cases ht : t.held.find? fun x => x.serial == serial with
    | none => simp [hs, ht] at hfind
    | some y =>
      exact .inr ⟨x, y, _, _, rfl, rfl, by simpa [hs, ht] using hfind, withHeld_alike h hrest⟩

theorem drop_alike (serial : Nat) : outcome (s.drop serial) = outcome (t.drop serial) := by
  unfold drop
  rcases takeHeld_alike h serial with ⟨hs, ht⟩ | ⟨x, y, s', t', hs, ht, hxy, hstate⟩
  · rw [hs, ht]
    exact congrArg (Prod.mk _) h
  · rw [hs, ht]
    simp [outcome, Reply.plain, hstate, hxy]

theorem submit_alike (serial : Nat) : outcome (s.submit serial) = outcome (t.submit serial) := by
  unfold submit
  rcases current_alike h with ⟨hs, ht⟩ | ⟨o, p, hs, ht, hop, -⟩
  · rw [hs, ht]
    exact congrArg (Prod.mk _) h
  rw [hs, ht]
  rcases takeHeld_alike h serial with ⟨hs, ht⟩ | ⟨x, y, s', t', hs, ht, hxy, hstate⟩
  · rw [hs, ht]
    exact congrArg (Prod.mk _) h
  rw [hs, ht]
  have hid : x.id = y.id := congrArg (fun x => x.id) hxy
  have hgeneration : o.generation = p.generation := congrArg (fun o => o.generation) hop
  dsimp only
  rw [hid, hgeneration]
  let body : OpenPool → Locked φ → Ending Bool × Locked φ := fun _ l =>
    (.ok (l.reserve y.id).1, (l.reserve y.id).2)
  have hbody : ∀ (o p : OpenPool) (l l' : Locked φ), o.config = p.config →
      l.plain = l'.plain → Locked.Alike Eq (body o l) (body p l') := by
    intro _ _ l l' _ hl
    exact ⟨.ok (Locked.fresh_alike hl y.id), Locked.reserve_alike hl y.id⟩
  rcases locked_alike hstate hbody with ⟨hl, hl'⟩ | ⟨r, r', s'', t'', hl, hl', hending, hafter⟩
  all_goals
    change s'.locked _ = _ at hl
    change t'.locked _ = _ at hl'
  · rw [hl, hl']
    simp [outcome, Section.reply, Reply.plain, hstate, hxy]
  rw [hl, hl']
  cases hending with
  | failed error => simp [outcome, Section.reply, Reply.plain, hafter, hxy]
  | panicked => simp [outcome, Section.reply, Reply.plain, hafter, hxy]
  | @ok a b hab =>
    subst hab
    cases a with
    | false => simp [outcome, Reply.plain, hafter, hxy]
    | true =>
      have hcount : s''.registrations = t''.registrations :=
        congrArg (fun s : System Behaviour => s.registrations) hafter
      have hcalls : (Call.registering x y.id (t''.registrations + 1) :: s''.calls).map Call.plain =
          (Call.registering y y.id (t''.registrations + 1) :: t''.calls).map Call.plain := by
        rw [List.map_cons, List.map_cons, calls_alike hafter]
        exact congrArg (fun x => Call.registering x _ _ :: _) hxy
      dsimp only
      rw [hcount]
      exact congrArg (Prod.mk _) (withHook_alike hafter hcalls ⟨_, p.generation, y.id⟩)

theorem abandon_alike (id : BufferId) {x y : Surface} (hxy : x.plain = y.plain) :
    (s.abandon id x).plain = (t.abandon id y).plain := by
  unfold abandon
  rcases current_alike h with ⟨hs, ht⟩ | ⟨o, p, hs, ht, hop, hinside⟩
  · rw [hs, ht]
    simp [h, hxy]
  · rw [hs, ht]
    have hleft := leave_alike h hop (Locked.forget_alike hinside id)
    simp [hleft, hxy]

theorem registered_alike : outcome s.registered = outcome t.registered := by
  unfold registered
  rcases call_alike h with ⟨hs, ht⟩ | ⟨c, d, calls, calls', hs, ht, hcd, hreturned⟩
  · rw [hs, ht]
    exact congrArg (Prod.mk _) h
  rw [hs, ht]
  cases c with
  | flushing x cached =>
    cases d with
    | flushing y cached' => exact congrArg (Prod.mk _) h
    | registering y id n => exact absurd hcd (by simp [Call.plain, Call.mapSurface])
  | registering x id n =>
    cases d with
    | flushing y cached => exact absurd hcd (by simp [Call.plain, Call.mapSurface])
    | registering y id' n' =>
      obtain ⟨hxy, rfl, rfl⟩ := Call.registering.inj hcd
      obtain ⟨r, s', t', hs', ht', hstate⟩ := perform_alike hreturned
        (f := fun _ l => (.ok (), l.settle id x)) (g := fun _ l => (.ok (), l.settle id y))
        fun _ _ _ _ _ hl => ⟨.ok trivial, Locked.settle_alike hl id hxy⟩
      dsimp only
      rw [hs', ht']
      cases r with
      | failed error => exact congrArg (Prod.mk _) (abandon_alike hstate id hxy)
      | _ => exact congrArg (Prod.mk _) hstate

theorem unwind_alike : outcome s.unwind = outcome t.unwind := by
  unfold unwind
  rcases call_alike h with ⟨hs, ht⟩ | ⟨c, d, calls, calls', hs, ht, hcd, hreturned⟩
  · rw [hs, ht]
    exact congrArg (Prod.mk _) h
  · rw [hs, ht]
    have hsurface : c.surface.plain = d.surface.plain := by
      have hown := congrArg Call.surface hcd
      cases c <;> cases d <;> exact hown
    simp [outcome, Reply.plain, hreturned, hsurface]

theorem signal_alike (id : BufferId) : (s.signal id).plain = (t.signal id).plain := by
  unfold signal
  rcases locked_alike h (f := fun _ l => (.ok (), l.complete id))
      (g := fun _ l => (.ok (), l.complete id))
      fun _ _ _ _ _ hl => ⟨.ok (R := fun _ _ => True) trivial, Locked.complete_alike hl id⟩ with
    ⟨hs, ht⟩ | ⟨r, r', s', t', hs, ht, hending, hstate⟩
  · rw [hs, ht]
    exact h
  · rw [hs, ht]
    cases hending <;> exact hstate

theorem deliver_alike (hook : Hook) : (s.deliver hook).plain = (t.deliver hook).plain := by
  unfold deliver
  rcases current_alike h with ⟨hs, ht⟩ | ⟨o, p, hs, ht, hop, -⟩
  · rw [hs, ht]
    exact h
  · have hgeneration : o.generation = p.generation := congrArg (fun o => o.generation) hop
    rw [hs, ht, Option.any_some, Option.any_some, hgeneration]
    split
    · exact signal_alike h hook.id
    · exact h

theorem fire_alike (hook : Nat) : outcome (s.fire hook) = outcome (t.fire hook) := by
  have hhooks : s.hooks = t.hooks := congrArg (fun s : System Behaviour => s.hooks) h
  unfold fire
  rw [hhooks]
  split
  · exact congrArg (Prod.mk _) h
  · rename_i k hk
    have hcalled : ({ s with hooks := t.hooks.erase k } : System φ).plain =
        ({ t with hooks := t.hooks.erase k } : System φ).plain := by
      change ({ s.plain with hooks := t.hooks.erase k } : System Behaviour) =
        { t.plain with hooks := t.hooks.erase k }
      rw [h]
    exact congrArg (Prod.mk _) (deliver_alike hcalled k)

theorem build_alike {a b : Features} (hab : a.plain = b.plain) :
    outcome (s.build a) = outcome (t.build b) := by
  have hdevice : s.device.plain = t.device.plain := congrArg System.device h
  have hbuilt : s.device.built = t.device.built :=
    congrArg (fun d : Device Behaviour => d.built) hdevice
  have hx : (s.device.build a).1.plain = (t.device.build b).1.plain := by
    change (⟨a.plain, s.device.built + 1⟩ : Surface) = ⟨b.plain, t.device.built + 1⟩
    rw [hab, hbuilt]
  have hmade : ({ s with device := (s.device.build a).2 } : System φ).plain =
      ({ t with device := (t.device.build b).2 } : System φ).plain := by
    change ({ s.plain with device := (s.plain.device.build a).2 } : System Behaviour) =
      { t.plain with device := (t.plain.device.build b).2 }
    rw [h]
    rfl
  unfold build
  simp [outcome, Reply.plain, hmade, hx]

theorem close_alike : s.close.plain = t.close.plain := by
  have hclosed : ∀ (s : System φ) (o : OpenPool), s.current = some o →
      s.close.plain = { s.plain with
        current := none
        device := s.plain.device.releaseAll o.plain.pool.owned } := by
    intro s o hs
    have howned : o.plain.pool.owned = o.pool.owned.map Surface.plain := by
      change o.pool.available.map _ ++ (o.pool.pending.map _).values = _
      rw [Pending.values_map, ← List.map_append]
      rfl
    rw [howned]
    change _ = ({ s.plain with
      current := none
      device := s.device.plain.releaseAll _ } : System Behaviour)
    rw [← Device.releaseAll_plain]
    unfold close
    rw [hs]
    dsimp only
    split <;> rfl
  rcases current_alike h with ⟨hs, ht⟩ | ⟨o, p, hs, ht, hop, -⟩
  · unfold close
    rw [hs, ht]
    exact h
  · rw [hclosed s o hs, hclosed t p ht, h, hop]

theorem isEmpty_alike : s.calls.isEmpty = t.calls.isEmpty := by
  have hcalls := congrArg List.isEmpty (calls_alike h)
  simpa using hcalls

theorem closePool_alike : outcome s.closePool = outcome t.closePool := by
  have hcurrent : s.current.isSome = t.current.isSome := by
    rcases current_alike h with ⟨hs, ht⟩ | ⟨o, p, hs, ht, -⟩
    · rw [hs, ht]
    · rw [hs, ht]
      rfl
  unfold closePool
  rw [isEmpty_alike h, hcurrent]
  split
  · exact congrArg (Prod.mk _) (close_alike h)
  · exact congrArg (Prod.mk _) h

theorem replacePool_alike (config : Config) :
    (s.replacePool config).plain = (t.replacePool config).plain := by
  have hopened : s.opened = t.opened := congrArg (fun s : System Behaviour => s.opened) h
  let fresh : OpenPool :=
    { generation := t.opened + 1, config, pool := { capacity := config.maxSurfaces } }
  unfold replacePool
  rw [hopened]
  change ({ s.close.plain with
      current := some fresh.plain
      opened := t.opened + 1 } : System Behaviour) =
    { t.close.plain with current := some fresh.plain, opened := t.opened + 1 }
  rw [close_alike h]

theorem openPool_alike (config : Option Config) :
    outcome (s.openPool config) = outcome (t.openPool config) := by
  unfold openPool
  rw [isEmpty_alike h]
  split
  · cases config with
    | none => exact congrArg (Prod.mk _) (replacePool_alike h {})
    | some config =>
      dsimp only
      split
      · exact congrArg (Prod.mk _) h
      · obtain ⟨journal, hs⟩ := s.startLogging_eq config.logging
        obtain ⟨journal', ht⟩ := t.startLogging_eq config.logging
        have hstarted : (s.startLogging config.logging).plain =
            (t.startLogging config.logging).plain := by
          rw [hs, ht]
          exact h
        exact congrArg (Prod.mk _) (replacePool_alike hstarted config)
  · exact congrArg (Prod.mk _) h

theorem touch_alike (serial : Nat) {f g : Features → Features}
    (hfg : ∀ a b : Features, a.plain = b.plain → (f a).plain = (g b).plain) :
    (s.touch serial f).plain = (t.touch serial g).plain := by
  -- Both changes come to one change of plain surfaces.
  let change : Surface → Surface := fun x => (x.touch serial f).plain
  have htouched : ∀ (s : System φ) (k : Features → Features),
      (∀ a : Features, (k a).plain = (f a.plain).plain) → (s.touch serial k).plain =
        { s.plain with
          held := s.plain.held.map change
          calls := s.plain.calls.map (Call.mapSurface change)
          current := s.plain.current.map fun o =>
            { o with pool := o.pool.mapSurfaces change } } := by
    intro s k hk
    have hsurface : Surface.plain ∘ Surface.touch serial k = change ∘ Surface.plain :=
      Surface.plain_comp_touch serial hk
    have hcall : Call.plain ∘ Call.mapSurface (Surface.touch serial k) =
        Call.mapSurface change ∘ Call.plain := by
      funext c
      cases c with
      | flushing x cached => exact congrArg (Call.flushing · cached) (congrFun hsurface x)
      | registering x id n => exact congrArg (Call.registering · id n) (congrFun hsurface x)
    have hpool : ∀ p : Pool, (p.mapSurfaces (Surface.touch serial k)).plain =
        p.plain.mapSurfaces change := by
      intro p
      simp only [Pool.plain, Pool.mapSurfaces, List.map_map, Pending.map_map, hsurface]
    have hcurrent : (OpenPool.plain ∘ fun o =>
        { o with pool := o.pool.mapSurfaces (Surface.touch serial k) }) =
          (fun o => { o with pool := o.pool.mapSurfaces change }) ∘ OpenPool.plain := by
      funext o
      exact congrArg (fun pool => { o with pool }) (hpool o.pool)
    simp only [plain, touch, List.map_map, Option.map_map, hsurface, hcall, hcurrent]
  rw [htouched s f fun a => (hfg a a.plain rfl).trans (hfg a.plain a.plain rfl).symm,
    htouched t g fun a => (hfg a.plain a rfl).symm, h]

theorem step_alike {m m' : Move φ} (hm : m.Alike m') :
    outcome (s.step m) = outcome (t.step m') := by
  cases hm with
  | touch serial hfg => exact congrArg (Prod.mk _) (touch_alike h serial hfg)
  | build hab => exact build_alike h hab
  | @adjust f g hfg =>
    have hallocator : Allocator.plain s.device.allocator = Allocator.plain t.device.allocator :=
      congrArg (fun s : System Behaviour => s.device.allocator) h
    have hadjusted : Allocator.plain (f s.device.allocator) =
        Allocator.plain (g t.device.allocator) := hfg _ _ hallocator
    refine congrArg (Prod.mk _) ?_
    change ({ s.plain with
        device := { s.plain.device with allocator := Allocator.plain (f s.device.allocator) } } :
          System Behaviour) =
      { t.plain with
        device := { t.plain.device with allocator := Allocator.plain (g t.device.allocator) } }
    rw [h, hadjusted]
  | operation hm =>
    cases m with
    | openPool config => exact openPool_alike h config
    | closePool => exact closePool_alike h
    | acquire size => exact acquire_alike h size
    | flushed ok => exact flushed_alike h ok
    | submit serial => exact submit_alike h serial
    | registered => exact registered_alike h
    | unwind => exact unwind_alike h
    | fire hook => exact fire_alike h hook
    | collect =>
      exact maintain_alike h fun o p _ _ hconfig hl =>
        hconfig ▸ Locked.collect_alike hl o.config.maxAge
    | shrink => exact maintain_alike h fun _ _ _ _ _ hl => Locked.shrink_alike hl
    | drop serial => exact drop_alike h serial
    | _ => exact absurd hm (by simp [Move.operates])

end Same

theorem step_observes (s : System φ) {m : Move φ} (hm : m.observes = true) :
    (s.step m).2.plain = s.plain := by
  cases m with
  | report =>
    let body : OpenPool → Locked φ → Ending Stats × Locked φ :=
      fun _ l => (.ok l.report.pool.lastReport, l.report)
    change (s.locked body).2.plain = s.plain
    rcases s.locked_cases body with ⟨-, h⟩ | ⟨o, -, -, h⟩ | ⟨o, ho, hp, h⟩
    · rw [h]
    · rw [h]
    · rw [h, leave_ok hp]
      have hsame := leave_plain s o (s.inside o)
      rw [leave_inside ho] at hsame
      exact hsame.symm
  | lastReport | availableCount | pendingCount | cachedBytes | isPending id
  | reportUsage usage => rfl
  | _ => exact absurd hm (by simp [Move.observes])

theorem course_observes (s : System φ) {m : Move φ} (hm : m.observes = true) (ms : List (Move φ)) :
    s.course (m :: ms) = (s.step m).2.course ms :=
  if_pos hm

theorem course_operates (s : System φ) {m : Move φ} (hm : m.observes = false) (ms : List (Move φ)) :
    s.course (m :: ms) = s.step m :: (s.step m).2.course ms :=
  if_neg (by simp [hm])

end System

/-- Two runs that start alike go alike, whatever one of them observes in between and whatever the
    surfaces and the resource cache tell about their memory: every operation comes to the same in
    both, and leaves the same behind. -/
theorem observation_only {s t : System φ} (h : s.plain = t.plain) {ms ms' : List (Move φ)}
    (aligned : Move.Aligned ms ms') :
    (s.course ms).map System.outcome = (t.course ms').map System.outcome ∧
      (s.run ms).plain = (t.run ms').plain := by
  induction aligned generalizing s t with
  | nil => exact ⟨rfl, h⟩
  | both hm _ ih =>
    obtain ⟨hleft, hright⟩ := hm.observes
    have hstep := System.step_alike h hm
    obtain ⟨hcourse, hrun⟩ := ih (congrArg Prod.snd hstep)
    rw [System.course_operates s hleft, System.course_operates t hright, List.map_cons,
      List.map_cons, hstep, hcourse]
    exact ⟨rfl, hrun⟩
  | left hm _ ih =>
    rw [System.course_observes s hm]
    exact ih ((s.step_observes hm).trans h)
  | right hm _ ih =>
    rw [System.course_observes t hm]
    exact ih (h.trans (t.step_observes hm).symm)

open Scenario in
/-- One run has reports while a surface gets ready and while it is registered, and its surface and
    the resource cache hold more memory. The last reports are not the same; all else is. -/
theorem observation_only_of_nested_reports :
    ∃ (s : System Faults) (ms ms' : List (Move Faults)), Move.Aligned ms ms' ∧
      (s.run ms).current.map (fun o => o.pool.lastReport) ≠
        (s.run ms').current.map (fun o => o.pool.lastReport) ∧
      (s.course ms).length = 8 ∧
      (s.course ms).map System.outcome = (s.course ms').map System.outcome ∧
      (s.run ms).plain = (s.run ms').plain := by
  let s : System Faults := { device := { allocator := {} } }
  have grown : (Move.touch 1 fun f => { f with allocation := some (.clamp 5) } : Move Faults).Alike
      (.touch 1 id) := .touch 1 fun a b hab => hab
  have aligned : Move.Aligned
      [.openPool none, .acquire ⟨8, 8⟩, .report, .flushed true, .submit 1, .report, .lastReport,
        .registered, .touch 1 fun f => { f with allocation := some (.clamp 5) }, .fire 1,
        .reportUsage { bytes := .clamp 7 }, .collect, .cachedBytes]
      [.openPool none, .acquire ⟨8, 8⟩, .flushed true, .submit 1, .pendingCount, .registered,
        .touch 1 id, .fire 1, .collect] :=
    .both (.operation rfl) <| .both (.operation rfl) <| .left rfl <| .both (.operation rfl) <|
      .both (.operation rfl) <| .left rfl <| .left rfl <| .right rfl <| .both (.operation rfl) <|
      .both grown <| .both (.operation rfl) <| .left rfl <| .both (.operation rfl) <|
      .left rfl .nil
  exact ⟨s, _, _, aligned, by decide, by decide, observation_only rfl aligned⟩

end SurfaceReuse
