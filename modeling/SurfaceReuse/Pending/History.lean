import SurfaceReuse.Pending.Basic

set_option autoImplicit false

/-!
Histories of a pending map: commands given one after another, with what each of them answers.
-/

namespace SurfaceReuse.Pending

inductive Command (α : Type) where
  | reserve (id : BufferId)
  | park (id : BufferId) (value : α)
  | complete (id : BufferId)
  | contains (id : BufferId)

def Command.id {α : Type} : Command α → BufferId
  | .reserve id => id
  | .park id _ => id
  | .complete id => id
  | .contains id => id

inductive Answer (α : Type) where
  | reserved (fresh : Bool)
  | parked (parking : Parking α)
  | completed (completion : Completion α)
  | contained (tracked : Bool)
  deriving DecidableEq

variable {α : Type}

def apply (p : Pending α) : Command α → Answer α × Pending α
  | .reserve id => (.reserved (p.reserve id).1, (p.reserve id).2)
  | .park id value => (.parked (p.park id value).1, (p.park id value).2)
  | .complete id => (.completed (p.complete id).1, (p.complete id).2)
  | .contains id => (.contained (p.contains id), p)

/-- A command as it went: its answer, and the map right after it. -/
structure Event (α : Type) where
  command : Command α
  answer : Answer α
  after : Pending α

def run (p : Pending α) : List (Command α) → List (Event α)
  | [] => []
  | command :: rest =>
    let (answer, after) := p.apply command
    ⟨command, answer, after⟩ :: run after rest

end SurfaceReuse.Pending
