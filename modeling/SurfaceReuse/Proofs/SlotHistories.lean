import SurfaceReuse.Proofs.SlotAutomata

set_option autoImplicit false

/-!
What becomes of the values that are parked in a pending map. A value is handed back at once, or it
is in its slot and leaves it once: with the completion of its id, or when the id is parked again.
Where every parking has a reservation of its own, it leaves with the completion only.
-/

namespace SurfaceReuse

namespace Pending

variable {α : Type}

def Command.Parks (id : BufferId) : Command α → Prop
  | .park k _ => k = id
  | _ => False

def Unparked (p : Pending α) (id : BufferId) : Prop :=
  ∀ value, p.get? id ≠ some (.parked value)

section Parked

variable {p : Pending α} {c : Command α} {id : BufferId} {value : α}

theorem parked_of_freed (h : (p.apply c).1.freed? = some value) :
    p.get? c.id = some (.parked value) := by
  rw [apply_fst] at h
  cases hslot : p.get? c.id with
  | none =>
    rw [hslot] at h
    cases c <;> exact absurd h (by simp [Command.act, Answer.freed?])
  | some slot =>
    rw [hslot] at h
    cases slot with
    | reserved => cases c <;> exact absurd h (by simp [Command.act, Answer.freed?])
    | parked old =>
      cases c with
      | park k new =>
        obtain rfl : old = value := Option.some.inj h
        rfl
      | complete k =>
        obtain rfl : old = value := Option.some.inj h
        rfl
      | _ => exact absurd h (by simp [Command.act, Answer.freed?])

theorem Unparked.apply (h : p.Unparked id) (hc : ¬ c.Parks id) : (p.apply c).2.Unparked id := by
  intro value
  cases c with
  | reserve k =>
    change (p.reserve k).2.get? id ≠ _
    rw [get?_reserve]
    split
    · rename_i hid
      subst hid
      cases hslot : p.get? id with
      | none => simp
      | some slot => exact hslot ▸ h value
    · exact h value
  | park k new =>
    change (p.park k new).2.get? id ≠ _
    rw [get?_park, if_neg (Ne.symm hc)]
    exact h value
  | complete k =>
    change (p.complete k).2.get? id ≠ _
    rw [get?_complete]
    split
    · simp
    · exact h value
  | contains k => exact h value

theorem unparked_complete (p : Pending α) (id : BufferId) : (p.complete id).2.Unparked id := by
  intro value
  rw [get?_complete, if_pos rfl]
  simp

theorem unparked_reserve (h : (p.reserve id).1 = true) : (p.reserve id).2.Unparked id := by
  rw [reserve_fst, Bool.not_eq_true'] at h
  intro value
  rw [get?_reserve_self h]
  simp

theorem get?_apply_parked (h : p.get? id = some (.parked value)) (hpark : ¬ c.Parks id)
    (hcomplete : c ≠ .complete id) : (p.apply c).2.get? id = some (.parked value) := by
  rw [get?_apply]
  split
  · rename_i hid
    subst hid
    rw [h]
    cases c with
    | reserve _ => rfl
    | park _ _ => exact absurd rfl hpark
    | complete _ => exact absurd rfl hcomplete
    | contains _ => rfl
  · exact h

end Parked

/-- Event `n` of those that come later is about `id` and has the answer, and no value is parked
    under `id` before it. -/
def AnswersAt (id : BufferId) (later : List (Event α)) (n : Nat) (answer : Answer α) : Prop :=
  (∀ e ∈ later.take n, ¬ e.command.Parks id) ∧
    ∃ e, later[n]? = some e ∧ e.command.id = id ∧ e.answer = answer

/-- Where a value ends up that is parked. -/
inductive Fate where
  /-- Back with whoever tried to park it. -/
  | returned
  /-- With the completion that is event `n` of those that come later. -/
  | released (n : Nat)
  /-- Put out by the parking that is event `n` of those that come later. -/
  | displaced (n : Nat)
  /-- Still under its id. -/
  | kept

/-- The fate of a value that is parked under `id` with `answer`, given what comes `later` and what
    the map is at `last`. Once `id` is parked again, what is under it is another value, though it
    may look the same. -/
def Fate.Holds (id : BufferId) (value : α) (answer : Answer α) (later : List (Event α))
    (last : Pending α) : Fate → Prop
  | .returned => answer = .parked (.returned value)
  | .released n => AnswersAt id later n (.completed (.ready value))
  | .displaced n => AnswersAt id later n (.parked (.stored (some value)))
  | .kept => (∀ e ∈ later, ¬ e.command.Parks id) ∧ last.get? id = some (.parked value)

section AnswersAt

variable {id : BufferId} {e : Event α} {later : List (Event α)} {n : Nat} {answer : Answer α}

theorem not_answersAt_nil : ¬ AnswersAt id [] n answer := by
  rintro ⟨-, e, he, -⟩
  simp at he

theorem answersAt_zero :
    AnswersAt id (e :: later) 0 answer ↔ e.command.id = id ∧ e.answer = answer := by
  simp [AnswersAt]

theorem answersAt_succ :
    AnswersAt id (e :: later) (n + 1) answer ↔
      ¬ e.command.Parks id ∧ AnswersAt id later n answer := by
  simp [AnswersAt, and_assoc]

end AnswersAt

section Fates

variable {p : Pending α} {id : BufferId} {value : α} {answer : Answer α}

theorem Unparked.not_answersAt (h : p.Unparked id) (rest : List (Command α)) {n : Nat}
    (hfreed : answer.freed? = some value) : ¬ AnswersAt id (p.run rest) n answer := by
  induction rest generalizing p n with
  | nil => exact not_answersAt_nil
  | cons c rest ih =>
    rw [run_cons]
    cases n with
    | zero =>
      rw [answersAt_zero]
      rintro ⟨rfl, hanswer⟩
      change (p.apply c).1 = answer at hanswer
      rw [← hanswer] at hfreed
      exact h value (parked_of_freed hfreed)
    | succ n =>
      rw [answersAt_succ]
      rintro ⟨hc, hat⟩
      exact ih (h.apply hc) hat

theorem Unparked.afterAll (h : p.Unparked id) (rest : List (Command α))
    (hnone : ∀ e ∈ p.run rest, ¬ e.command.Parks id) : (p.afterAll rest).Unparked id := by
  induction rest generalizing p with
  | nil => exact h
  | cons c rest ih =>
    rw [run_cons, List.forall_mem_cons] at hnone
    exact ih (h.apply hnone.1) hnone.2

theorem Unparked.fate (h : p.Unparked id) (rest : List (Command α)) {fate : Fate}
    (hfate : fate.Holds id value answer (p.run rest) (p.afterAll rest)) : fate = .returned := by
  cases fate with
  | returned => rfl
  | released n => exact absurd hfate (h.not_answersAt rest rfl)
  | displaced n => exact absurd hfate (h.not_answersAt rest rfl)
  | kept => exact absurd hfate.2 (h.afterAll rest hfate.1 value)

/-- The fate as seen one event earlier. -/
def Fate.later : Fate → Fate
  | .released n => .released (n + 1)
  | .displaced n => .displaced (n + 1)
  | fate => fate

theorem Fate.holds_later {e : Event α} {events : List (Event α)} {last : Pending α}
    (hpark : ¬ e.command.Parks id) (fate : Fate) :
    fate.later.Holds id value answer (e :: events) last ↔
      fate.Holds id value answer events last := by
  cases fate with
  | returned => exact Iff.rfl
  | released n => exact answersAt_succ.trans (and_iff_right hpark)
  | displaced n => exact answersAt_succ.trans (and_iff_right hpark)
  | kept =>
    change (∀ _ ∈ _, _) ∧ _ ↔ (∀ _ ∈ _, _) ∧ _
    rw [List.forall_mem_cons, and_iff_right hpark]

theorem completed_fate (hanswer : answer ≠ .parked (.returned value))
    (h : p.get? id = some (.parked value)) (rest : List (Command α)) (fate : Fate) :
    fate.Holds id value answer (p.run (.complete id :: rest)) (p.afterAll (.complete id :: rest)) ↔
      fate = .released 0 := by
  have hready : (p.apply (.complete id)).1 = .completed (.ready value) := by
    rw [apply_fst]
    change (Command.act (p.get? id) _).1 = _
    rw [h]
    rfl
  have hgone : (p.apply (.complete id)).2.Unparked id := unparked_complete p id
  rw [run_cons]
  constructor
  · intro hfate
    cases fate with
    | returned => exact absurd hfate hanswer
    | released n =>
      cases n with
      | zero => rfl
      | succ n => exact absurd (answersAt_succ.mp hfate).2 (hgone.not_answersAt rest rfl)
    | displaced n =>
      cases n with
      | zero => exact absurd (hready.symm.trans (answersAt_zero.mp hfate).2) (by simp)
      | succ n => exact absurd (answersAt_succ.mp hfate).2 (hgone.not_answersAt rest rfl)
    | kept =>
      have hnone := (List.forall_mem_cons.mp hfate.1).2
      exact absurd hfate.2 (hgone.afterAll rest hnone value)
  · rintro rfl
    exact answersAt_zero.mpr ⟨rfl, hready⟩

/-- A further parking puts the value out, and what follows is about another value. -/
theorem replaced_fate (hanswer : answer ≠ .parked (.returned value))
    (h : p.get? id = some (.parked value)) (new : α) (rest : List (Command α)) (fate : Fate) :
    fate.Holds id value answer (p.run (.park id new :: rest)) (p.afterAll (.park id new :: rest)) ↔
      fate = .displaced 0 := by
  have hstored : (p.apply (.park id new)).1 = .parked (.stored (some value)) := by
    rw [apply_fst]
    change (Command.act (p.get? id) _).1 = _
    rw [h]
    rfl
  have hparks : (Command.park id new).Parks id := rfl
  rw [run_cons]
  constructor
  · intro hfate
    cases fate with
    | returned => exact absurd hfate hanswer
    | released n =>
      cases n with
      | zero => exact absurd (hstored.symm.trans (answersAt_zero.mp hfate).2) (by simp)
      | succ n => exact absurd hparks (answersAt_succ.mp hfate).1
    | displaced n =>
      cases n with
      | zero => rfl
      | succ n => exact absurd hparks (answersAt_succ.mp hfate).1
    | kept => exact absurd hparks (List.forall_mem_cons.mp hfate.1).1
  · rintro rfl
    exact answersAt_zero.mpr ⟨rfl, hstored⟩

theorem passed_fate {c : Command α} (hpark : ¬ c.Parks id) (hcomplete : c ≠ .complete id)
    (rest : List (Command α)) (fate : Fate) :
    fate.Holds id value answer (p.run (c :: rest)) (p.afterAll (c :: rest)) ↔
      ∃ next : Fate, fate = next.later ∧
        next.Holds id value answer ((p.apply c).2.run rest) ((p.apply c).2.afterAll rest) := by
  rw [run_cons]
  constructor
  · intro hfate
    cases fate with
    | returned => exact ⟨.returned, rfl, hfate⟩
    | released n =>
      cases n with
      | zero =>
        obtain ⟨rfl, hready⟩ := answersAt_zero.mp hfate
        cases c with
        | complete _ => exact absurd rfl hcomplete
        | _ => exact absurd hready (by simp [Pending.apply])
      | succ n => exact ⟨.released n, rfl, (Fate.holds_later hpark (.released n)).mp hfate⟩
    | displaced n =>
      cases n with
      | zero =>
        obtain ⟨rfl, hstored⟩ := answersAt_zero.mp hfate
        cases c with
        | park _ _ => exact absurd rfl hpark
        | _ => exact absurd hstored (by simp [Pending.apply])
      | succ n => exact ⟨.displaced n, rfl, (Fate.holds_later hpark (.displaced n)).mp hfate⟩
    | kept => exact ⟨.kept, rfl, (Fate.holds_later hpark .kept).mp hfate⟩
  · rintro ⟨next, rfl, hnext⟩
    exact (Fate.holds_later hpark next).mpr hnext

theorem parked_fate (hanswer : answer ≠ .parked (.returned value))
    (h : p.get? id = some (.parked value)) (rest : List (Command α)) :
    ∃ fate : Fate, ∀ other : Fate,
      other.Holds id value answer (p.run rest) (p.afterAll rest) ↔ other = fate := by
  induction rest generalizing p with
  | nil =>
    refine ⟨.kept, fun other => ⟨fun hother => ?_, ?_⟩⟩
    · cases other with
      | returned => exact absurd hother hanswer
      | released n => exact absurd hother not_answersAt_nil
      | displaced n => exact absurd hother not_answersAt_nil
      | kept => rfl
    · rintro rfl
      exact ⟨fun e he => absurd he List.not_mem_nil, h⟩
  | cons c rest ih =>
    by_cases hpark : c.Parks id
    · cases c with
      | park k new =>
        obtain rfl : k = id := hpark
        exact ⟨.displaced 0, replaced_fate hanswer h new rest⟩
      | _ => exact hpark.elim
    by_cases hcomplete : c = .complete id
    · subst hcomplete
      exact ⟨.released 0, completed_fate hanswer h rest⟩
    obtain ⟨fate, hfate⟩ := ih (get?_apply_parked h hpark hcomplete)
    refine ⟨fate.later, fun other => ?_⟩
    rw [passed_fate hpark hcomplete]
    simp only [hfate, exists_eq_right]

theorem not_completed_before (hfreed : answer.freed? = some value) (rest : List (Command α))
    (n : Nat) (hat : AnswersAt id (p.run rest) n answer) :
    ∀ e ∈ (p.run rest).take n, e.command ≠ .complete id := by
  induction rest generalizing p n with
  | nil => exact absurd hat not_answersAt_nil
  | cons c rest ih =>
    rw [run_cons] at hat ⊢
    cases n with
    | zero => simp
    | succ n =>
      obtain ⟨hpark, hat⟩ := answersAt_succ.mp hat
      rw [List.take_succ_cons, List.forall_mem_cons]
      refine ⟨?_, ih n hat⟩
      rintro (rfl : c = .complete id)
      exact (unparked_complete p id).not_answersAt rest hfreed hat

/-- A value is handed back if its id is absent, and has its fate still to come otherwise. -/
theorem fate_unique (p : Pending α) (id : BufferId) (value : α) (rest : List (Command α)) :
    ∃! fate : Fate, fate.Holds id value (p.apply (.park id value)).1
      ((p.apply (.park id value)).2.run rest) ((p.apply (.park id value)).2.afterAll rest) := by
  have hslot := get?_park p id value id
  change ∃! fate : Fate, fate.Holds id value (.parked (p.park id value).1)
    ((p.park id value).2.run rest) ((p.park id value).2.afterAll rest)
  cases h : p.get? id with
  | none =>
    have hpark : (p.park id value).1 = .returned value := by simp [park, h]
    have hbare : (p.park id value).2.Unparked id := by simp [Unparked, hslot, h]
    exact ⟨.returned, congrArg Answer.parked hpark, fun other hother => hbare.fate rest hother⟩
  | some slot =>
    have hpark : (p.park id value).1 = .stored slot.value? := by simp [park, h]
    have hin : (p.park id value).2.get? id = some (.parked value) := by simp [hslot, h]
    have hanswer : Answer.parked (p.park id value).1 ≠ .parked (.returned value) := by simp [hpark]
    obtain ⟨fate, hfate⟩ := parked_fate hanswer hin rest
    exact ⟨fate, (hfate fate).mpr rfl, fun other => (hfate other).mp⟩

end Fates

def Event.Reserves (e : Event α) (id : BufferId) : Prop :=
  e.command = .reserve id ∧ e.answer = .reserved true

/-- Every parking has a new reservation of its own before it: the id is neither reserved nor parked
    between the two. -/
def Prepared (events : List (Event α)) : Prop :=
  ∀ front e back id, events = front ++ e :: back → e.command.Parks id →
    ∃ early r between, front = early ++ r :: between ∧ r.Reserves id ∧
      ∀ b ∈ between, b.command ≠ .reserve id ∧ ¬ b.command.Parks id

theorem Prepared.nothing_displaced {p : Pending α} {commands : List (Command α)}
    (h : Prepared (p.run commands)) {e : Event α} (he : e ∈ p.run commands) (old : α) :
    e.answer ≠ .parked (.stored (some old)) := by
  intro hdisplaced
  obtain ⟨front, back, hsplit⟩ := List.append_of_mem he
  obtain ⟨first, rest, rfl, hfront, hanswer, -, -⟩ := run_eq_append_cons hsplit
  -- what is put out was parked under the id
  rw [hdisplaced] at hanswer
  have hheld : (p.afterAll first).get? e.command.id = some (.parked old) :=
    parked_of_freed (congrArg Answer.freed? hanswer)
  have hparks : e.command.Parks e.command.id := by
    cases hc : e.command with
    | park _ _ => exact rfl
    | _ =>
      rw [hc] at hanswer
      exact absurd hanswer (by simp [Pending.apply])
  -- but the id was reserved anew, and nothing has been parked under it since
  obtain ⟨early, r, between, rfl, ⟨hreserve, hnew⟩, hbetween⟩ := h front e back _ hsplit hparks
  obtain ⟨early, rest', rfl, rfl, hr, hafter, rfl⟩ := run_eq_append_cons hfront
  have hbare : r.after.Unparked e.command.id := by
    rw [hreserve, hnew] at hr
    rw [← hafter, hreserve]
    exact unparked_reserve (Answer.reserved.inj hr)
  have hstill := hbare.afterAll rest' fun b hb => (hbetween b hb).2
  rw [afterAll_append, afterAll_cons, hafter] at hheld
  exact hstill old hheld

def Answer.found : Answer α → Bool
  | .completed .untracked => false
  | .completed _ => true
  | _ => false

def Event.finds (id : BufferId) (e : Event α) : Bool :=
  e.command.id = id && e.answer.found

section Found

variable (p : Pending α) (c : Command α)

theorem contains_of_found (h : (p.apply c).1.found = true) :
    p.contains c.id = true ∧ (p.apply c).2.contains c.id = false := by
  cases c with
  | complete k =>
    change (Answer.completed (p.complete k).1).found = true at h
    change p.contains k = true ∧ (p.complete k).2.contains k = false
    rw [contains_eq_isSome, contains_eq_isSome, get?_complete, if_pos rfl]
    refine ⟨?_, rfl⟩
    cases hslot : p.get? k with
    | none =>
      rw [complete_fst, hslot] at h
      exact absurd h (by simp [Answer.found])
    | some slot => rfl
  | _ => exact absurd h (by simp [Pending.apply, Answer.found])

theorem contains_of_not_reserved {id : BufferId}
    (h : ¬ (c = .reserve id ∧ (p.apply c).1 = .reserved true))
    (hafter : (p.apply c).2.contains id = true) : p.contains id = true := by
  cases c with
  | reserve k =>
    by_cases hid : id = k
    · subst hid
      have hold : (p.reserve id).1 ≠ true := fun hnew => h ⟨rfl, congrArg Answer.reserved hnew⟩
      rw [reserve_fst] at hold
      simpa using hold
    · change (p.reserve k).2.contains id = true at hafter
      rw [contains_eq_isSome, get?_reserve, if_neg hid] at hafter
      exact (p.contains_eq_isSome id).trans hafter
  | park k new =>
    change (p.park k new).2.contains id = true at hafter
    rw [contains_eq_isSome, get?_park] at hafter
    rw [contains_eq_isSome]
    split at hafter
    · rename_i hid
      rw [hid]
      exact (Option.isSome_map).symm.trans hafter
    · exact hafter
  | complete k =>
    change (p.complete k).2.contains id = true at hafter
    rw [contains_eq_isSome, get?_complete] at hafter
    rw [contains_eq_isSome]
    split at hafter
    · exact absurd hafter (by simp)
    · exact hafter
  | contains k => exact hafter

/-- While an id is not reserved anew, one completion finds it at most, and none if it was absent. -/
theorem finds_le (commands : List (Command α)) (id : BufferId)
    (h : ∀ e ∈ p.run commands, ¬ e.Reserves id) :
    (p.run commands).countP (Event.finds id) ≤ (p.contains id).toNat := by
  induction commands generalizing p with
  | nil => exact Nat.zero_le _
  | cons c rest ih =>
    rw [run_cons, List.forall_mem_cons] at h
    have hrest := ih (p.apply c).2 h.2
    rw [run_cons, List.countP_cons]
    split
    · rename_i hfinds
      obtain ⟨hid, hfound⟩ := Bool.and_eq_true_iff.mp hfinds
      obtain rfl : c.id = id := of_decide_eq_true hid
      obtain ⟨hbefore, hafter⟩ := contains_of_found p c hfound
      rw [hafter] at hrest
      rw [hbefore]
      exact Nat.succ_le_succ hrest
    · exact hrest.trans (Bool.toNat_le_toNat (contains_of_not_reserved p c h.1))

end Found

/-- What is true of every history of a pending map. -/
structure Lawful (p : Pending α) (commands : List (Command α)) : Prop where
  /-- To every id the history is that of its own slot under its own commands. -/
  own : ∀ k,
    answersFor k (p.run commands) = (drive (p.get? k) (commandsFor k commands)).1 ∧
      (p.afterAll commands).get? k = (drive (p.get? k) (commandsFor k commands)).2
  /-- So operations on different ids commute: it does not matter how the ids take turns. -/
  turns : ∀ commands', (∀ k, commandsFor k commands' = commandsFor k commands) → ∀ k,
    answersFor k (p.run commands') = answersFor k (p.run commands) ∧
      (p.afterAll commands').get? k = (p.afterAll commands).get? k
  size : ∃ tracked : Finset BufferId, tracked.card = (p.afterAll commands).size ∧
    ∀ k, k ∈ tracked ↔ (p.afterAll commands).get? k ≠ none
  /-- What was there and what came in is what went out and what is there. -/
  values :
    ((p.run commands).flatMap (fun e => e.answer.values) ++ (p.afterAll commands).values).Perm
      (commands.flatMap Command.values ++ p.values)
  /-- A value ends up in one place for each time it is parked. -/
  fate : ∀ front e back id value, p.run commands = front ++ e :: back →
    e.command = .park id value →
      ∃! fate : Fate, fate.Holds id value e.answer back (p.afterAll commands)
  /-- Until it leaves its slot, its id is not completed. -/
  given : ∀ front e back id value n, p.run commands = front ++ e :: back →
    e.command = .park id value →
      Fate.Holds id value e.answer back (p.afterAll commands) (.released n) ∨
        Fate.Holds id value e.answer back (p.afterAll commands) (.displaced n) →
      ∀ b ∈ back.take n, b.command ≠ .complete id
  /-- No value is put out of a slot that was reserved for another. -/
  prepared : Prepared (p.run commands) → ∀ e ∈ p.run commands, ∀ old,
    e.answer ≠ .parked (.stored (some old))
  /-- Between two new reservations of an id, one completion finds it at most. -/
  found : ∀ front r between back id, p.run commands = front ++ r :: (between ++ back) →
    r.Reserves id → (∀ b ∈ between, ¬ b.Reserves id) → between.countP (Event.finds id) ≤ 1

/-- A pending map is a state machine for each id, and it conserves what is parked in it. -/
theorem slot_histories_lawful (p : Pending α) (commands : List (Command α)) :
    p.Lawful commands where
  own := drive_own p commands
  turns := fun _ h k => same_own p k (h k)
  size := size_eq_card _
  values := run_values p commands
  fate := by
    intro front e back id value hsplit hpark
    obtain ⟨first, rest, rfl, rfl, hanswer, hafter, rfl⟩ := run_eq_append_cons hsplit
    have hunique := fate_unique (p.afterAll first) id value rest
    rw [← hpark, hanswer, hafter] at hunique
    rw [afterAll_append, afterAll_cons, hafter]
    exact hunique
  given := by
    intro front e back id value n hsplit hpark hgiven
    obtain ⟨first, rest, rfl, rfl, -, -, rfl⟩ := run_eq_append_cons hsplit
    rcases hgiven with hgiven | hgiven
    · exact not_completed_before rfl rest n hgiven
    · exact not_completed_before rfl rest n hgiven
  prepared := fun h e he old => h.nothing_displaced he old
  found := by
    intro front r between back id hsplit hr hnone
    obtain ⟨first, rest, rfl, rfl, -, -, hbetween⟩ := run_eq_append_cons hsplit
    obtain ⟨middle, -, -, rfl, -⟩ := run_eq_append hbetween
    exact (finds_le r.after middle id hnone).trans (Bool.toNat_le _)

/-- Two ids take turns: one is completed after its value came, and the other gets none. -/
theorem slot_histories_lawful_of_turns :
    let p : Pending Nat := .empty
    let commands : List (Command Nat) :=
      [.reserve ⟨1⟩, .reserve ⟨2⟩, .park ⟨1⟩ 10, .complete ⟨2⟩, .complete ⟨1⟩]
    Prepared (p.run commands) ∧
      (∀ e ∈ p.run commands, ∀ old, e.answer ≠ .parked (.stored (some old))) ∧
      ∃! fate : Fate, fate.Holds ⟨1⟩ 10 (.parked (.stored none))
        ((p.afterAll (commands.take 3)).run (commands.drop 3)) (p.afterAll commands) := by
  intro p commands
  have hprepared : Prepared (p.run commands) := by
    intro front e back id hsplit hparks
    obtain ⟨first, rest, hcommands, rfl, -, -, -⟩ := run_eq_append_cons hsplit
    simp only [commands, List.cons_eq_append_iff, List.cons.injEq, List.nil_eq_append_iff]
      at hcommands
    rcases hcommands with ⟨-, hc, -⟩ | ⟨_, rfl, ⟨-, hc, -⟩ | ⟨_, rfl, ⟨rfl, hc, -⟩ | ⟨_, rfl,
      ⟨-, hc, -⟩ | ⟨_, rfl, ⟨-, hc, -⟩ | ⟨_, rfl, -, hc⟩⟩⟩⟩⟩
    · exact (hc ▸ hparks : (Command.reserve _ : Command Nat).Parks id).elim
    · exact (hc ▸ hparks : (Command.reserve _ : Command Nat).Parks id).elim
    · obtain rfl : (⟨1⟩ : BufferId) = id := (hc ▸ hparks : (Command.park _ 10).Parks id)
      refine ⟨[], _, [_], rfl, ⟨rfl, rfl⟩, fun b hb => ?_⟩
      rw [List.mem_singleton.mp hb]
      exact ⟨by simp, not_false⟩
    · exact (hc ▸ hparks : (Command.complete _ : Command Nat).Parks id).elim
    · exact (hc ▸ hparks : (Command.complete _ : Command Nat).Parks id).elim
    · exact absurd hc (by simp)
  have hlawful := slot_histories_lawful p commands
  let parking : Event Nat := ⟨.park ⟨1⟩ 10, .parked (.stored none), p.afterAll (commands.take 3)⟩
  have hsplit : p.run commands = p.run (commands.take 2) ++ parking ::
      (p.afterAll (commands.take 3)).run (commands.drop 3) := rfl
  exact ⟨hprepared, hlawful.prepared hprepared, hlawful.fate _ parking _ ⟨1⟩ 10 hsplit rfl⟩

end Pending

end SurfaceReuse
