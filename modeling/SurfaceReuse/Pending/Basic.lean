import SurfaceReuse.BufferId

set_option autoImplicit false

/-!
The values that wait for a completion signal, each under an id. A slot is reserved before the
signal can arrive and filled afterwards, so the signal may find the slot empty; it then takes
the empty slot away, and whoever comes to fill it learns from its absence that the wait is over.
-/

namespace SurfaceReuse

inductive Slot (α : Type) where
  | reserved
  | parked (value : α)
  deriving DecidableEq

namespace Slot

def value? {α : Type} : Slot α → Option α
  | .reserved => none
  | .parked value => some value

def map {α β : Type} (f : α → β) : Slot α → Slot β
  | .reserved => .reserved
  | .parked value => .parked (f value)

end Slot

structure Pending (α : Type) where
  slots : List (BufferId × Slot α)
  nodup : (slots.map Prod.fst).Nodup

inductive Completion (α : Type) where
  /-- Nothing: the signal came twice, or for an id of someone else. -/
  | untracked
  /-- An empty slot: the signal came before the value. -/
  | early
  | ready (value : α)
  deriving DecidableEq

inductive Parking (α : Type) where
  /-- It is in the slot; a value that was there before is put out. -/
  | stored (displaced : Option α)
  /-- There is no slot, and the value stays with its owner. -/
  | returned (value : α)
  deriving DecidableEq

namespace Pending

variable {α : Type}

def empty : Pending α := ⟨[], List.nodup_nil⟩

instance : Inhabited (Pending α) := ⟨empty⟩

def ids (p : Pending α) : List BufferId :=
  p.slots.map Prod.fst

def sortedIds (p : Pending α) : List BufferId :=
  p.ids.mergeSort fun a b => a.number ≤ b.number

def get? (p : Pending α) (id : BufferId) : Option (Slot α) :=
  p.slots.lookup id

def contains (p : Pending α) (id : BufferId) : Bool :=
  p.ids.contains id

def size (p : Pending α) : Nat :=
  p.slots.length

def values (p : Pending α) : List α :=
  p.slots.filterMap fun slot => slot.2.value?

def insert (p : Pending α) (id : BufferId) (h : id ∉ p.ids) : Pending α :=
  ⟨(id, .reserved) :: p.slots, List.nodup_cons.mpr ⟨h, p.nodup⟩⟩

def reserve (p : Pending α) (id : BufferId) : Bool × Pending α :=
  if h : id ∈ p.ids then (false, p) else (true, p.insert id h)

def mapSlots {β : Type} (p : Pending α) (f : BufferId → Slot α → Slot β) : Pending β :=
  ⟨p.slots.map fun slot => (slot.1, f slot.1 slot.2), by
    simpa [List.map_map, Function.comp_def] using p.nodup⟩

def map {β : Type} (p : Pending α) (f : α → β) : Pending β :=
  p.mapSlots fun _ slot => slot.map f

def park (p : Pending α) (id : BufferId) (value : α) : Parking α × Pending α :=
  match p.get? id with
  | none => (.returned value, p)
  | some slot =>
    (.stored slot.value?, p.mapSlots fun k s => if k = id then .parked value else s)

def erase (p : Pending α) (id : BufferId) : Pending α :=
  ⟨p.slots.filter fun slot => slot.1 ≠ id, (List.filter_sublist.map Prod.fst).nodup p.nodup⟩

/-- Delivers the completion signal of `id`. Whatever was tracked under `id` is let go. -/
def complete (p : Pending α) (id : BufferId) : Completion α × Pending α :=
  match p.get? id with
  | none => (.untracked, p)
  | some .reserved => (.early, p.erase id)
  | some (.parked value) => (.ready value, p.erase id)

end Pending

end SurfaceReuse
