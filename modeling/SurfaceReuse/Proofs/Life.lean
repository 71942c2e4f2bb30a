import SurfaceReuse.System.Lemmas

set_option autoImplicit false

/-!
The life of a pool: what happens in a process from the opening of a pool on, move by move, while
that pool is in use. Moves of the caller, code of surfaces and completion signals come in any
order and to any depth; a law says what is assumed of the single moves.
-/

namespace SurfaceReuse

variable {φ : Type}

/-- A move as it went. -/
structure Moment (φ : Type) where
  before : System φ
  move : Move φ
  reply : Reply
  after : System φ

def System.moment [Allocator φ] (s : System φ) (move : Move φ) : Moment φ :=
  ⟨s, move, (s.step move).1, (s.step move).2⟩

namespace Moment

def handed? : Moment φ → Option Surface
  | ⟨_, .flushed _, .handed x, _⟩ => some x
  | _ => none

/-- The hook that a submission gave to a surface, with the surface's serial number. -/
def registered? : Moment φ → Option (Hook × Nat)
  | ⟨_, .submit serial, .entered, after⟩ => after.hooks.head?.map fun h => (h, serial)
  | _ => none

def called? : Moment φ → Option Nat
  | ⟨_, .fire hook, .done, _⟩ => some hook
  | _ => none

/-- The serial numbers of surfaces that the caller has from elsewhere. Those it holds when a pool
    is opened come from elsewhere for that pool. -/
def foreign : Moment φ → List Nat
  | ⟨_, .openPool _, .done, after⟩ => after.held.map fun x => x.serial
  | ⟨_, .build _, .handed x, _⟩ => [x.serial]
  | _ => []

def requests (m : Moment φ) : Nat :=
  m.after.device.requests.length - m.before.device.requests.length

end Moment

section History

variable (past : List (Moment φ))

def handedOut : List Nat :=
  (past.filterMap Moment.handed?).map fun x => x.serial

def registered : List (Hook × Nat) :=
  past.filterMap Moment.registered?

def called : List Nat :=
  past.filterMap Moment.called?

def foreign : List Nat :=
  past.flatMap Moment.foreign

def requestsMade : Nat :=
  past.foldl (fun n m => n + m.requests) 0

/-- Hook `h` was given to the surface with that serial number and was not called yet. -/
def Outstanding (h : Hook) (serial : Nat) : Prop :=
  (h, serial) ∈ registered past ∧ h.number ∉ called past

end History

/-- The states of processes in which any number of pools came and went. -/
inductive System.Reachable [Allocator φ] : System φ → Prop where
  | start (allocator : φ) (usage : CacheUsage) (journal : Log.Journal) :
      Reachable { device := { allocator, usage }, journal }
  | step {s : System φ} (h : Reachable s) (move : Move φ) : Reachable (s.step move).2

/-- `Life law past s`: the pool in use in `s` was opened by the first moment of `past`, and what
    followed kept to the law, which sees what was before. -/
inductive Life [Allocator φ] (law : List (Moment φ) → Moment φ → Prop) :
    List (Moment φ) → System φ → Prop where
  | opened {s : System φ} (config : Option Config) (h : s.Reachable)
      (ok : (s.step (.openPool config)).1 = .done) :
      Life law [s.moment (.openPool config)] (s.step (.openPool config)).2
  | move {past : List (Moment φ)} {s : System φ} (life : Life law past s) (m : Move φ)
      (stays : m.staysOpen = true) (lawful : law past (s.moment m)) :
      Life law (past ++ [s.moment m]) (s.step m).2

/-- Ids never change, and only surfaces that the pool handed out are submitted. -/
structure Orderly (past : List (Moment φ)) (m : Moment φ) : Prop where
  sameId : ∀ serial change, m.move = .touch serial change → ∀ f : Features, (change f).id = f.id
  submitted : ∀ serial, m.move = .submit serial → serial ∈ handedOut past

def SubmitsOwn (past : List (Moment φ)) (m : Moment φ) : Prop :=
  ∀ serial, m.move = .submit serial → serial ∈ handedOut past

theorem SubmitsOwn.submit [Allocator φ] {past : List (Moment φ)} (s : System φ) {serial : Nat}
    (h : serial ∈ handedOut past) : SubmitsOwn past (s.moment (.submit serial)) := by
  intro serial' he
  cases he
  exact h

theorem Orderly.submit [Allocator φ] {past : List (Moment φ)} (s : System φ) {serial : Nat}
    (h : serial ∈ handedOut past) : Orderly past (s.moment (.submit serial)) where
  sameId := nofun
  submitted := SubmitsOwn.submit s h

def Moment.Calm (m : Moment φ) : Prop :=
  m.reply ≠ .panicked

/-- The device gives a surface the id that it was asked to. -/
def Allocator.KeepsIds (φ : Type) [Allocator φ] : Prop :=
  ∀ (a : φ) (size : Size) (id : BufferId) (f : Features),
    (Allocator.answer a size id).1 = .made f → f.id = id

namespace Life

variable [Allocator φ] {law law' : List (Moment φ) → Moment φ → Prop} {past : List (Moment φ)}
  {s : System φ}

theorem weaken (h : ∀ past m, law past m → law' past m) (life : Life law past s) :
    Life law' past s := by
  induction life with
  | opened config hs ok => exact .opened config hs ok
  | move _ m stays lawful ih => exact .move ih m stays (h _ _ lawful)

theorem moment_eq (life : Life law past s) {m : Moment φ} (h : m ∈ past) :
    m.before.moment m.move = m := by
  induction life with
  | opened config hs ok =>
    obtain rfl := List.mem_singleton.mp h
    rfl
  | move life m' stays lawful ih =>
    rcases List.mem_append.mp h with h | h
    · exact ih h
    · obtain rfl := List.mem_singleton.mp h
      rfl

theorem upto (life : Life law past s) {earlier later : List (Moment φ)} {m : Moment φ}
    (h : past = earlier ++ m :: later) : Life law (earlier ++ [m]) m.after := by
  induction life generalizing later with
  | @opened s config hs ok =>
    cases earlier with
    | nil =>
      obtain ⟨rfl, -⟩ := List.cons.inj h
      exact .opened config hs ok
    | cons first rest => simp at h
  | @move past s life m' stays lawful ih =>
    rcases List.eq_nil_or_concat later with rfl | ⟨later, last, rfl⟩
    · obtain ⟨rfl, hm⟩ := List.append_inj' h rfl
      obtain rfl : s.moment m' = m := by simpa using hm
      exact .move life m' stays lawful
    · have h' : past ++ [s.moment m'] = (earlier ++ m :: later) ++ [last] := by simpa using h
      exact ih (List.append_inj' h' rfl).1

/-- The first moment opens the pool, and every other is a move in the life up to it. -/
theorem moment_cases (life : Life law past s) {earlier later : List (Moment φ)} {m : Moment φ}
    (hpast : past = earlier ++ m :: later) :
    (∃ config, m = m.before.moment (.openPool config) ∧ m.reply = .done) ∨
      Life law earlier m.before ∧ m.move.staysOpen = true := by
  induction life generalizing later with
  | @opened s config hs ok =>
    cases earlier with
    | nil =>
      obtain ⟨rfl, -⟩ := List.cons.inj hpast
      exact .inl ⟨config, rfl, ok⟩
    | cons first rest => simp at hpast
  | @move past s life m' stays lawful ih =>
    rcases List.eq_nil_or_concat later with rfl | ⟨later, last, rfl⟩
    · obtain ⟨rfl, hm⟩ := List.append_inj' hpast rfl
      obtain rfl : s.moment m' = m := by simpa using hm
      exact .inr ⟨life, stays⟩
    · have hpast' : past ++ [s.moment m'] = (earlier ++ m :: later) ++ [last] := by
        simpa using hpast
      exact ih (List.append_inj' hpast' rfl).1

/-- What holds after a moment and survives every move holds ever since. -/
theorem since (life : Life law past s) {earlier later : List (Moment φ)} {m : Moment φ}
    (hpast : past = earlier ++ m :: later) {P : List (Moment φ) → System φ → Prop}
    (start : P [] m.after)
    (next : ∀ (between : List (Moment φ)) (t : System φ) (m' : Move φ),
      Life law (earlier ++ m :: between) t → m'.staysOpen = true →
        law (earlier ++ m :: between) (t.moment m') → P between t →
          P (between ++ [t.moment m']) (t.step m').2) : P later s := by
  induction life generalizing later with
  | @opened s config hs ok =>
    cases earlier with
    | nil =>
      obtain ⟨rfl, rfl⟩ := List.cons.inj hpast
      exact start
    | cons first rest => simp at hpast
  | @move past s life m' stays lawful ih =>
    rcases List.eq_nil_or_concat later with rfl | ⟨later, last, rfl⟩
    · obtain ⟨-, hm⟩ := List.append_inj' hpast rfl
      obtain rfl := List.singleton_inj.mp hm
      exact start
    · rw [List.concat_eq_append] at hpast ⊢
      rw [← List.cons_append, ← List.append_assoc] at hpast
      obtain ⟨hbefore, hlast⟩ := List.append_inj' hpast rfl
      obtain rfl := List.singleton_inj.mp hlast
      exact next later s m' (hbefore ▸ life) stays (hbefore ▸ lawful) (ih hbefore)

end Life

end SurfaceReuse
