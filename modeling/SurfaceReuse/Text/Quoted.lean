import SurfaceReuse.Text.Unprintable
import SurfaceReuse.Text.Extending

set_option autoImplicit false

/-!
Quoted text. Quotes and backslashes are written behind a backslash, four control characters by
a letter, and every other character that would not show on its own by its number.
-/

namespace SurfaceReuse.Text

/-- Whether `c` shows on its own: it is printable and does not merge with what is before it. -/
def standsAlone (c : Char) : Bool :=
  if c.toNat < 128 then 32 ≤ c.toNat && c.toNat ≠ 127
  else !isUnprintable c && !isExtending c

/-- The number of `c` in hexadecimal digits between braces. -/
def escapeNumber (c : Char) : List Char :=
  ['\\', 'u', '\x7b'] ++ Nat.toDigits 16 c.toNat ++ ['\x7d']

def quoteChar (c : Char) : List Char :=
  match c with
  | '\x00' => ['\\', '0']
  | '\t' => ['\\', 't']
  | '\r' => ['\\', 'r']
  | '\n' => ['\\', 'n']
  | '"' => ['\\', '"']
  | '\\' => ['\\', '\\']
  | c => if standsAlone c then [c] else escapeNumber c

def quote (text : String) : String :=
  String.ofList (['"'] ++ text.toList.flatMap quoteChar ++ ['"'])

instance : Shown String := ⟨fun text => .leaf (quote text)⟩

end SurfaceReuse.Text
