import SurfaceReuse.Config
import SurfaceReuse.Stats
import SurfaceReuse.System.Probe

set_option autoImplicit false

/-!
Scripts: what a caller does step by step, and what the surfaces do in return when their code
runs. Surfaces are named by their serial numbers.
-/

namespace SurfaceReuse.Scenario

/-- What a surface does with a hook it is given. -/
inductive Finish where
  /-- It keeps the hook, in place of one it may have kept before. -/
  | later
  | atOnce
  | lost
  deriving DecidableEq

/-- The places where foreign code can panic. -/
inductive PanicPoint where
  | create
  | flush
  | register
  | registerAfter
  deriving DecidableEq

/-- Changes to a surface and to its conduct; what is not given stays. -/
structure Switches where
  id : Option BufferId := none
  size : Option Size := none
  valid : Option Bool := none
  oversized : Option Bool := none
  stable : Option Bool := none
  age : Option UInt32 := none
  allocation : Option Bytes := none
  flushOk : Option Bool := none
  finish : Option Finish := none
  panic : Option PanicPoint := none

def Switches.applyTo (w : Switches) (f : Features) : Features where
  id := w.id.getD f.id
  size := w.size.getD f.size
  valid := w.valid.getD f.valid
  oversized := w.oversized.getD f.oversized
  stable := w.stable.getD f.stable
  age := w.age.getD f.age
  allocation := w.allocation <|> f.allocation

/-- The steps that a surface takes while it gets ready, and after it was given a hook; a list
    that is not given stays. -/
structure Code (σ : Type) where
  onFlush : Option (List σ) := none
  onRegister : Option (List σ) := none

/-- Orders to the device; what is not given stays. -/
structure Orders where
  panic : Option Bool := none
  refusals : Option Nat := none
  defects : Option Nat := none
  oversized : Option Nat := none
  usage : Option CacheUsage := none

inductive Step where
  | make (id : BufferId) (size : Size) (switches : Switches) (code : Code Step)
  | set (serial : Nat) (switches : Switches) (code : Code Step)
  | drop (serial : Nat)
  | order (orders : Orders)
  /-- Calls the hook that a surface kept. -/
  | finish (serial : Nat)
  | acquire (size : Size)
  | submit (serial : Nat)
  | collect
  | shrink
  | report
  | lastReport
  | availableCount
  | pendingCount
  | cachedBytes
  | isPending (id : BufferId)
  | config
  /-- Writes the pool out, on one line or spread over several. -/
  | describe (spread : Bool)
  | openPool (config : Option Config)
  | closePool
  | probe (probe : Probe)

mutual

def Step.weight : Step → Nat
  | .make _ _ _ code => codeWeight code + 1
  | .set _ _ code => codeWeight code + 1
  | _ => 1

def codeWeight : Code Step → Nat
  | ⟨onFlush, onRegister⟩ => partWeight onFlush + partWeight onRegister

def partWeight : Option (List Step) → Nat
  | none => 0
  | some steps => weight steps

def weight : List Step → Nat
  | [] => 0
  | step :: steps => step.weight + weight steps

end

end SurfaceReuse.Scenario
