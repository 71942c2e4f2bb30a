import Mathlib.Data.Finset.Card
import SurfaceReuse.Pending.History
import SurfaceReuse.Pending.Values

set_option autoImplicit false

/-!
Histories of a pending map, id by id. Every id goes its own way between three states, absent,
reserved and parked, whatever is done to the others in between. Over all ids, what comes in is what
goes out and what stays.
-/

namespace SurfaceReuse

namespace Pending

variable {α : Type}

/-- What a command does to the slot of its id, absent ids having none. -/
def Command.act : Option (Slot α) → Command α → Answer α × Option (Slot α)
  | none, .reserve _ => (.reserved true, some .reserved)
  | none, .park _ value => (.parked (.returned value), none)
  | none, .complete _ => (.completed .untracked, none)
  | none, .contains _ => (.contained false, none)
  | some .reserved, .park _ value => (.parked (.stored none), some (.parked value))
  | some .reserved, .complete _ => (.completed .early, none)
  | some (.parked old), .park _ value => (.parked (.stored (some old)), some (.parked value))
  | some (.parked value), .complete _ => (.completed (.ready value), none)
  | some slot, .reserve _ => (.reserved false, some slot)
  | some slot, .contains _ => (.contained true, some slot)

/-- The slot of one id under its own commands. -/
def drive : Option (Slot α) → List (Command α) → List (Answer α) × Option (Slot α)
  | slot?, [] => ([], slot?)
  | slot?, command :: rest =>
    let (answer, after) := command.act slot?
    let (answers, last) := drive after rest
    (answer :: answers, last)

def commandsFor (id : BufferId) (commands : List (Command α)) : List (Command α) :=
  commands.filter fun command => command.id = id

def answersFor (id : BufferId) (events : List (Event α)) : List (Answer α) :=
  (events.filter fun e => e.command.id = id).map Event.answer

/-- The map that a history leaves behind. -/
def afterAll (p : Pending α) (commands : List (Command α)) : Pending α :=
  commands.foldl (fun q command => (q.apply command).2) p

theorem run_cons (p : Pending α) (c : Command α) (rest : List (Command α)) :
    p.run (c :: rest) = ⟨c, (p.apply c).1, (p.apply c).2⟩ :: (p.apply c).2.run rest := rfl

theorem afterAll_cons (p : Pending α) (c : Command α) (rest : List (Command α)) :
    p.afterAll (c :: rest) = (p.apply c).2.afterAll rest := rfl

theorem afterAll_append (p : Pending α) (first rest : List (Command α)) :
    p.afterAll (first ++ rest) = (p.afterAll first).afterAll rest :=
  List.foldl_append

section Split

variable {p : Pending α} {commands : List (Command α)} {front back : List (Event α)} {e : Event α}

theorem run_eq_append (h : p.run commands = front ++ back) :
    ∃ first rest, commands = first ++ rest ∧ p.run first = front ∧
      (p.afterAll first).run rest = back := by
  induction front generalizing p commands with
  | nil => exact ⟨[], commands, rfl, rfl, h⟩
  | cons e front ih =>
    cases commands with
    | nil => exact absurd h (by simp [run])
    | cons c commands =>
      rw [run_cons, List.cons_append] at h
      obtain ⟨rfl, htail⟩ := List.cons.inj h
      obtain ⟨first, rest, rfl, rfl, hback⟩ := ih htail
      exact ⟨c :: first, rest, rfl, rfl, hback⟩

/-- An event of a history is a command of it, given in the state that the ones before leave. -/
theorem run_eq_append_cons (h : p.run commands = front ++ e :: back) :
    ∃ first rest, commands = first ++ e.command :: rest ∧ p.run first = front ∧
      ((p.afterAll first).apply e.command).1 = e.answer ∧
      ((p.afterAll first).apply e.command).2 = e.after ∧ e.after.run rest = back := by
  obtain ⟨first, rest, rfl, rfl, hrest⟩ := run_eq_append h
  cases rest with
  | nil => exact absurd hrest (by simp [run])
  | cons c rest =>
    rw [run_cons] at hrest
    obtain ⟨rfl, htail⟩ := List.cons.inj hrest
    exact ⟨first, rest, rfl, rfl, rfl, rfl, htail⟩

end Split

section Act

variable (slot? : Option (Slot α)) (id : BufferId)

theorem act_reserve : Command.act slot? (.reserve id) =
    (.reserved (!slot?.isSome), some (slot?.getD .reserved)) := by
  cases slot? with
  | none => rfl
  | some slot => cases slot <;> rfl

theorem act_park_snd (value : α) :
    (Command.act slot? (.park id value)).2 = slot?.map fun _ => .parked value := by
  cases slot? with
  | none => rfl
  | some slot => cases slot <;> rfl

theorem act_complete_snd : (Command.act slot? (.complete id)).2 = none := by
  cases slot? with
  | none => rfl
  | some slot => cases slot <;> rfl

theorem act_contains : Command.act slot? (.contains id) = (.contained slot?.isSome, slot?) := by
  cases slot? with
  | none => rfl
  | some slot => cases slot <;> rfl

end Act

section Step

variable (p : Pending α) (c : Command α)

theorem contains_eq_isSome (id : BufferId) : p.contains id = (p.get? id).isSome := by
  rw [Bool.eq_iff_iff, contains_iff, get?_isSome_iff]

theorem apply_fst : (p.apply c).1 = (c.act (p.get? c.id)).1 := by
  cases c with
  | reserve id =>
    change Answer.reserved (p.reserve id).1 = (Command.act (p.get? id) _).1
    rw [act_reserve, reserve_fst, contains_eq_isSome]
  | park id value =>
    change Answer.parked (p.park id value).1 = (Command.act (p.get? id) _).1
    unfold park
    cases p.get? id with
    | none => rfl
    | some slot => cases slot <;> rfl
  | complete id =>
    change Answer.completed (p.complete id).1 = (Command.act (p.get? id) _).1
    rw [complete_fst]
    cases p.get? id with
    | none => rfl
    | some slot => cases slot <;> rfl
  | contains id =>
    change Answer.contained (p.contains id) = (Command.act (p.get? id) _).1
    rw [act_contains, contains_eq_isSome]

/-- The slots of other ids stay. -/
theorem get?_apply (k : BufferId) :
    (p.apply c).2.get? k = if k = c.id then (c.act (p.get? c.id)).2 else p.get? k := by
  cases c with
  | reserve id =>
    change (p.reserve id).2.get? k = if k = id then (Command.act (p.get? id) _).2 else _
    rw [act_reserve, get?_reserve]
  | park id value =>
    change (p.park id value).2.get? k = if k = id then (Command.act (p.get? id) _).2 else _
    rw [act_park_snd, get?_park]
  | complete id =>
    change (p.complete id).2.get? k = if k = id then (Command.act (p.get? id) _).2 else _
    rw [act_complete_snd, get?_complete]
  | contains id =>
    change p.get? k = if k = id then (Command.act (p.get? id) _).2 else _
    rw [act_contains]
    split
    · rename_i h
      rw [h]
    · rfl

end Step

/-- The answers for an id, and its slot in the end, are those of the id on its own. -/
theorem drive_own (p : Pending α) (commands : List (Command α)) (k : BufferId) :
    answersFor k (p.run commands) = (drive (p.get? k) (commandsFor k commands)).1 ∧
      (p.afterAll commands).get? k = (drive (p.get? k) (commandsFor k commands)).2 := by
  induction commands generalizing p with
  | nil => exact ⟨rfl, rfl⟩
  | cons c rest ih =>
    obtain ⟨hanswers, hlast⟩ := ih (p.apply c).2
    rw [get?_apply] at hanswers hlast
    rw [run_cons]
    unfold answersFor commandsFor at *
    change _ ∧ ((p.apply c).2.afterAll rest).get? k = _
    by_cases hk : c.id = k
    · subst hk
      rw [if_pos rfl] at hanswers hlast
      rw [List.filter_cons_of_pos (by simp), List.filter_cons_of_pos (by simp), List.map_cons,
        hanswers, hlast, apply_fst]
      exact ⟨rfl, rfl⟩
    · rw [if_neg (Ne.symm hk)] at hanswers hlast
      rw [List.filter_cons_of_neg (by simpa using hk), List.filter_cons_of_neg (by simpa using hk)]
      exact ⟨hanswers, hlast⟩

/-- Histories that give every id the same commands in the same order are the same to every id,
    however the ids take turns. -/
theorem same_own {commands commands' : List (Command α)} (p : Pending α) (k : BufferId)
    (h : commandsFor k commands' = commandsFor k commands) :
    answersFor k (p.run commands') = answersFor k (p.run commands) ∧
      (p.afterAll commands').get? k = (p.afterAll commands).get? k := by
  obtain ⟨hanswers, hlast⟩ := drive_own p commands k
  obtain ⟨hanswers', hlast'⟩ := drive_own p commands' k
  rw [h] at hanswers' hlast'
  exact ⟨hanswers'.trans hanswers.symm, hlast'.trans hlast.symm⟩

theorem size_eq_card (p : Pending α) :
    ∃ tracked : Finset BufferId, tracked.card = p.size ∧ ∀ k, k ∈ tracked ↔ p.get? k ≠ none := by
  refine ⟨⟨p.ids, p.nodup⟩, ?_, fun k => ?_⟩
  · exact List.length_map _
  · rw [← Option.isSome_iff_ne_none, get?_isSome_iff]
    rfl

/-- The values that a command brings. -/
def Command.values : Command α → List α
  | .park _ value => [value]
  | _ => []

/-- The value that was parked and leaves with the answer. -/
def Answer.freed? : Answer α → Option α
  | .parked (.stored displaced) => displaced
  | .completed (.ready value) => some value
  | _ => none

/-- The values that an answer gives out. -/
def Answer.values : Answer α → List α
  | .parked (.returned value) => [value]
  | answer => answer.freed?.toList

theorem apply_values (p : Pending α) (c : Command α) :
    ((p.apply c).1.values ++ (p.apply c).2.values).Perm (c.values ++ p.values) := by
  cases c with
  | reserve id =>
    change (p.reserve id).2.values.Perm p.values
    rw [values_reserve]
  | park id value =>
    change ((Answer.parked (p.park id value).1).values ++ (p.park id value).2.values).Perm
      (value :: p.values)
    cases h : p.get? id with
    | none =>
      have hpark : p.park id value = (.returned value, p) := by simp [park, h]
      rw [hpark]
      exact List.Perm.refl _
    | some slot =>
      have hpark : (p.park id value).1 = .stored slot.value? := by simp [park, h]
      rw [hpark]
      exact values_park p id value slot h
  | complete id =>
    change ((Answer.completed (p.complete id).1).values ++ (p.complete id).2.values).Perm p.values
    unfold complete
    cases h : p.get? id with
    | none => exact List.Perm.refl _
    | some slot => cases slot <;> exact values_erase p id _ h
  | contains id => exact List.Perm.refl _

/-- Nothing is lost and nothing comes twice. -/
theorem run_values (p : Pending α) (commands : List (Command α)) :
    ((p.run commands).flatMap (fun e => e.answer.values) ++ (p.afterAll commands).values).Perm
      (commands.flatMap Command.values ++ p.values) := by
  induction commands generalizing p with
  | nil => exact List.Perm.refl _
  | cons c rest ih =>
    rw [run_cons, List.flatMap_cons, List.flatMap_cons]
    let out := ((p.apply c).2.run rest).flatMap fun e => e.answer.values
    let brought := rest.flatMap Command.values
    change ((p.apply c).1.values ++ out ++ ((p.apply c).2.afterAll rest).values).Perm
      (c.values ++ brought ++ p.values)
    calc (p.apply c).1.values ++ out ++ ((p.apply c).2.afterAll rest).values
      _ = (p.apply c).1.values ++ (out ++ ((p.apply c).2.afterAll rest).values) :=
          List.append_assoc _ _ _
      List.Perm _ ((p.apply c).1.values ++ (brought ++ (p.apply c).2.values)) :=
          (ih _).append_left _
      List.Perm _ (brought ++ ((p.apply c).1.values ++ (p.apply c).2.values)) :=
          List.perm_append_comm_assoc _ _ _
      List.Perm _ (brought ++ (c.values ++ p.values)) := (apply_values p c).append_left _
      List.Perm _ (c.values ++ (brought ++ p.values)) := List.perm_append_comm_assoc _ _ _
      _ = c.values ++ brought ++ p.values := (List.append_assoc _ _ _).symm

end Pending

end SurfaceReuse
