import SurfaceReuse.Log.Library

set_option autoImplicit false

/-!
A logging library to run a process with. It takes one subscriber. Its filters are directives for
the pool's target alone, read as such directives are commonly read.
-/

namespace SurfaceReuse.Log

namespace Threshold

instance : ToString Threshold where
  toString
    | .atLeast .trace => "trace"
    | .atLeast .debug => "debug"
    | .atLeast .info => "info"
    | .atLeast .warn => "warn"
    | .atLeast .error => "error"
    | .off => "off"

def admits (t : Threshold) (level : Level) : Bool :=
  match t with
  | .atLeast least => decide (least.severity ≤ level.severity)
  | .off => false

def ofNumber? : Nat → Option Threshold
  | 0 => some .off
  | 1 => some (.atLeast .error)
  | 2 => some (.atLeast .warn)
  | 3 => some (.atLeast .info)
  | 4 => some (.atLeast .debug)
  | 5 => some (.atLeast .trace)
  | _ => none

/-- The thresholds by name; letters of either case will do. -/
def ofName? (name : List Char) : Option Threshold :=
  match String.ofList (name.map Char.toLower) with
  | "off" => some .off
  | "error" => some (.atLeast .error)
  | "warn" => some (.atLeast .warn)
  | "info" => some (.atLeast .info)
  | "debug" => some (.atLeast .debug)
  | "trace" => some (.atLeast .trace)
  | _ => none

end Threshold

/-- Reads a number: ASCII digits, at least one, behind a plus sign or none. Zeros in front of it
    do not count. -/
def readNumber? (text : List Char) : Option Nat :=
  let digits := match text with
    | '+' :: rest => rest
    | _ => text
  if digits.isEmpty || !digits.all Char.isDigit then none
  else some (Nat.ofDigitChars 10 digits 0)

def Threshold.ofText? (text : List Char) : Option Threshold :=
  match readNumber? text with
  | some n => Threshold.ofNumber? n
  | none => Threshold.ofName? text

/-- The threshold of the pool's target, which holds for the targets below it too. -/
structure Filter where
  threshold : Threshold
  deriving DecidableEq

namespace Filter

instance : ToString Filter where
  toString f := poolTarget ++ "=" ++ toString f.threshold

/-- Reads a directive for the pool's target. One that names no threshold lets everything
    through. -/
def ofText? (text : String) : Option Filter :=
  let target := text.toList.takeWhile (· != '=')
  if target != poolTarget.toList then none
  else
    match text.toList.drop (target.length + 1) with
    | [] => some ⟨.atLeast .trace⟩
    | threshold =>
      if threshold.contains '=' then none else (Threshold.ofText? threshold).map Filter.mk

end Filter

/-- The environment may name a filter. A text that is no directive is passed over. -/
def Library.console (environment : Option String := none) : Library where
  environment := (environment.bind Filter.ofText?).map toString
  spell := toString
  filterOf? text := (Filter.ofText? text).map toString
  silent := toString Threshold.off
  accepts installed _ := installed.isEmpty
  writes installed target level := installed.any fun x =>
    poolTarget.toList.isPrefixOf target.toList &&
      (Filter.ofText? x.filter).any fun f => f.threshold.admits level

/-- The filter in force for the settings when the environment says `text`. -/
def Filter.resolve (l : Logging) (text : Option String) : String :=
  (Library.console text).filterFor l

end SurfaceReuse.Log
