import SurfaceReuse.Log.Level

set_option autoImplicit false

/-!
Pool configurations: how many idle surfaces are kept, for how many maintenance ticks, and how
the pool logs. A configuration is checked before a pool is built from it.
-/

namespace SurfaceReuse

structure Logging where
  enabled : Bool := false
  level : Log.Level := .info
  ansi : Bool := false
  deriving DecidableEq

structure Config where
  maxSurfaces : Nat := 12
  maxAge : UInt32 := 3
  logging : Logging := {}
  deriving DecidableEq

namespace Config

def surfaceLimit : Nat := 256

inductive Fault where
  | noSurfaces
  | tooManySurfaces
  | noAge
  deriving DecidableEq

def Fault.message : Fault → String
  | .noSurfaces => "max_surfaces must be greater than 0"
  | .tooManySurfaces => "max_surfaces should not exceed " ++ toString surfaceLimit
  | .noAge => "max_surface_age must be greater than 0"

/-- The first fault of a configuration; the cap is looked at before the age. -/
def fault? (c : Config) : Option Fault :=
  if c.maxSurfaces = 0 then some .noSurfaces
  else if surfaceLimit < c.maxSurfaces then some .tooManySurfaces
  else if c.maxAge = 0 then some .noAge
  else none

/-- Few surfaces, given up after one idle tick. -/
def lowMemory : Config where
  maxSurfaces := 4
  maxAge := 1
  logging := { enabled := true, level := .warn }

/-- Many surfaces for many layers that change quickly. -/
def highThroughput : Config where
  maxSurfaces := 32
  maxAge := 8
  logging := { level := .error }

/-- The default limits with verbose, coloured logging. -/
def development : Config where
  logging := { enabled := true, level := .debug, ansi := true }

structure Draft where
  config : Config := {}

namespace Draft

inductive Choice where
  | maxSurfaces (n : Nat)
  | maxAge (n : UInt32)
  | logging (l : Logging)

/-- Makes a choice, in place of an earlier one of its kind. -/
def choose (d : Draft) : Choice → Draft
  | .maxSurfaces n => ⟨{ d.config with maxSurfaces := n }⟩
  | .maxAge n => ⟨{ d.config with maxAge := n }⟩
  | .logging l => ⟨{ d.config with logging := l }⟩

def settle (d : Draft) : Except Fault Config :=
  match d.config.fault? with
  | some fault => .error fault
  | none => .ok d.config

end Draft

end Config

namespace Text

instance : Shown Logging where
  tree l := .record "LoggingConfig"
    (.field "enabled" l.enabled (.field "level" l.level (.field "ansi" l.ansi .nil)))

instance : Shown Config where
  tree c := .record "PoolConfig"
    (.field "max_surfaces" c.maxSurfaces
    (.field "max_surface_age" c.maxAge (.field "logging" c.logging .nil)))

instance : Shown Config.Draft where
  tree d := .record "ConfigBuilder" (.field "config" d.config .nil)

end Text

end SurfaceReuse
