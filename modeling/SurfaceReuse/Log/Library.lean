import SurfaceReuse.Config
import SurfaceReuse.Log.Event

set_option autoImplicit false

/-!
The logging library of a process. How it reads filters, takes subscribers and hands events to
them is its own matter, so it is a parameter here. The process puts a subscriber together for its
settings. A filter named by the environment goes before the one that the settings ask for.
-/

namespace SurfaceReuse.Log

/-- What a process hands to the library. A filter goes by its text. -/
structure Subscriber where
  filter : String
  ansi : Bool
  deriving DecidableEq

structure Library where
  /-- The filter that the environment names, if it names one. -/
  environment : Option String
  /-- A threshold as it stands in a directive. -/
  spell : Threshold → String
  /-- The filter of this one directive, if the text can be read as one. -/
  filterOf? : String → Option String
  /-- The filter that nothing passes. -/
  silent : String
  /-- Whether a subscriber can be installed when these were. -/
  accepts : List Subscriber → Subscriber → Bool
  /-- Whether an event of this target and level is written when these were installed. -/
  writes : List Subscriber → String → Level → Bool

namespace Library

/-- Somebody else's subscriber is there from the beginning, and hears everything. -/
def occupied : Library where
  environment := none
  spell _ := ""
  filterOf? _ := none
  silent := ""
  accepts _ _ := false
  writes _ _ _ := true

variable (lib : Library)

def filterFor (l : Logging) : String :=
  let threshold := if l.enabled then .atLeast l.level else .off
  lib.environment.getD <|
    (lib.filterOf? (poolTarget ++ "=" ++ lib.spell threshold)).getD lib.silent

def subscriberFor (l : Logging) : Subscriber :=
  ⟨lib.filterFor l, l.ansi⟩

end Library

end SurfaceReuse.Log
