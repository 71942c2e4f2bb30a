import SurfaceReuse.Text.Tree

set_option autoImplicit false

/-!
Severities of log events, and the thresholds that let events through.
-/

namespace SurfaceReuse.Log

inductive Level where
  | trace
  | debug
  | info
  | warn
  | error
  deriving DecidableEq

namespace Level

/-- The rank of a level; a more severe level has the higher rank. -/
def severity : Level → Nat
  | .trace => 0
  | .debug => 1
  | .info => 2
  | .warn => 3
  | .error => 4

instance : Ord Level where
  compare a b := compare a.severity b.severity

instance : ToString Level where
  toString
    | .trace => "TRACE"
    | .debug => "DEBUG"
    | .info => "INFO"
    | .warn => "WARN"
    | .error => "ERROR"

instance : Text.Shown Level where
  tree level := .leaf <| match level with
    | .trace => "Trace"
    | .debug => "Debug"
    | .info => "Info"
    | .warn => "Warn"
    | .error => "Error"

end Level

/-- What a filter lets through: the events of a level and above, or none. -/
inductive Threshold where
  | atLeast (level : Level)
  | off
  deriving DecidableEq

end SurfaceReuse.Log
