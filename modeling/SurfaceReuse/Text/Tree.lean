set_option autoImplicit false

/-!
The text of structured values: a value is a leaf, a record with named fields, or a name
around one value. A tree is written on one line or spread over indented lines.
-/

namespace SurfaceReuse.Text

mutual

inductive Tree where
  | leaf (text : String)
  | record (name : String) (fields : Fields)
  | around (name : String) (inner : Tree)

inductive Fields where
  | nil
  | cons (label : String) (value : Tree) (rest : Fields)

end

/-- Types whose values are shown as a tree. -/
class Shown (α : Type) where
  tree : α → Tree

export Shown (tree)

instance : Shown Nat := ⟨fun n => .leaf (toString n)⟩

instance : Shown UInt32 := ⟨fun n => .leaf (toString n.toNat)⟩

instance : Shown UInt64 := ⟨fun n => .leaf (toString n.toNat)⟩

instance : Shown Bool := ⟨fun b => .leaf (if b then "true" else "false")⟩

/-- The fields `rest` behind one more, shown as its type says. -/
def Fields.field {α : Type} [Shown α] (label : String) (value : α) (rest : Fields) : Fields :=
  .cons label (tree value) rest

mutual

/-- The text on one line. -/
def Tree.line : Tree → String
  | .leaf text => text
  | .record name .nil => name
  | .record name fields => name ++ " \x7b " ++ fields.line ++ " \x7d"
  | .around name inner => name ++ "(" ++ inner.line ++ ")"

def Fields.line : Fields → String
  | .nil => ""
  | .cons label value .nil => label ++ ": " ++ value.line
  | .cons label value rest => label ++ ": " ++ value.line ++ ", " ++ rest.line

end

/-- The start of a line at `depth` levels, four blanks a level. -/
def margin (depth : Nat) : String :=
  String.ofList (List.replicate (4 * depth) ' ')

mutual

/-- The text with every field on a line of its own, one level deeper than its record. -/
def Tree.spread (depth : Nat) : Tree → String
  | .leaf text => text
  | .record name .nil => name
  | .record name fields =>
    name ++ " \x7b\n" ++ fields.spread (depth + 1) ++ margin depth ++ "\x7d"
  | .around name inner =>
    name ++ "(\n" ++ margin (depth + 1) ++ inner.spread (depth + 1) ++ ",\n" ++ margin depth ++ ")"

def Fields.spread (depth : Nat) : Fields → String
  | .nil => ""
  | .cons label value rest =>
    margin depth ++ label ++ ": " ++ value.spread depth ++ ",\n" ++ rest.spread depth

end

end SurfaceReuse.Text
