import SurfaceReuse.Scenario.Faults
import SurfaceReuse.Scenario.Script

set_option autoImplicit false

/-!
The stage a script is played on: the process, what each surface is to do when its code runs, and
the results of the steps that have ended.
-/

namespace SurfaceReuse.Scenario

structure Role where
  flushOk : Bool := true
  finish : Finish := .later
  panic : Option PanicPoint := none
  onFlush : List Step := []
  onRegister : List Step := []
  hook : Option Nat := none

def Role.change (r : Role) (w : Switches) (code : Code Step) : Role :=
  { r with
    flushOk := w.flushOk.getD r.flushOk
    finish := w.finish.getD r.finish
    panic := w.panic <|> r.panic
    onFlush := code.onFlush.getD r.onFlush
    onRegister := code.onRegister.getD r.onRegister }

inductive Skip where
  | noPool
  | notHeld
  | unknownSurface

inductive Result where
  | ok
  | nothing
  | flag (b : Bool)
  | count (n : Nat)
  | bytes (n : Bytes)
  | surface (s : Surface)
  | stats (s : Stats)
  | config (c : Config)
  | text (t : String)
  | failed (error : PoolError)
  | panicked (point : PanicPoint)
  | skipped (why : Skip)

/-- The result of a step that was one move. The only panics of a move itself are the device's. -/
def Result.ofReply (refusal : Skip) : Reply → Result
  | .refused => .skipped refusal
  | .entered | .done => .ok
  | .handed s => .surface s
  | .failed error => .failed error
  | .panicked => .panicked .create
  | .stats s => .stats s
  | .count n => .count n
  | .bytes n => .bytes n
  | .flag b => .flag b

structure Stage where
  system : System Faults
  /-- The roles of the surfaces that were given one, by serial number; the others have the
  default role. -/
  roles : List (Nat × Role) := []
  results : List Result := []

namespace Stage

def role (t : Stage) (serial : Nat) : Role :=
  (t.roles.lookup serial).getD {}

def setRole (t : Stage) (serial : Nat) (r : Role) : Stage :=
  { t with roles := (serial, r) :: t.roles.filter fun entry => entry.1 ≠ serial }

def changeRole (t : Stage) (serial : Nat) (f : Role → Role) : Stage :=
  t.setRole serial (f (t.role serial))

def move (t : Stage) (m : Move Faults) : Reply × Stage :=
  let (reply, system) := t.system.step m
  (reply, { t with system })

def force (t : Stage) (m : Move Faults) : Stage :=
  (t.move m).2

def finish (t : Stage) (r : Result) : Stage :=
  { t with results := r :: t.results }

def single (t : Stage) (m : Move Faults) (refusal : Skip) : Stage :=
  let (reply, t) := t.move m
  t.finish (.ofReply refusal reply)

def ask (t : Stage) (question : OpenPool → Result) : Stage :=
  t.finish (t.system.current.elim (.skipped .noPool) question)

def unwind (t : Stage) (serial : Nat) (point : PanicPoint) : Stage :=
  ((t.changeRole serial fun r => { r with panic := none }).force .unwind).finish (.panicked point)

def flush (t : Stage) (perform : Stage → Step → Stage) (serial : Nat) : Stage :=
  let role := t.role serial
  if role.panic = some .flush then t.unwind serial .flush
  else
    let t := t.changeRole serial fun r => { r with onFlush := [] }
    let t := role.onFlush.foldl perform t
    t.single (.flushed (t.role serial).flushOk) .noPool

def takeHook (t : Stage) (serial : Nat) (hook : Nat) : Stage :=
  match (t.role serial).finish with
  | .later => t.changeRole serial fun r => { r with hook := some hook }
  | .atOnce => t.force (.fire hook)
  | .lost => t

/-- The surface is given a hook: it does with it what it does, and then takes the steps of its
    code. -/
def register (t : Stage) (perform : Stage → Step → Stage) (serial hook : Nat) : Stage :=
  let role := t.role serial
  if role.panic = some .register then t.unwind serial .register
  else
    let t := t.changeRole serial fun r => { r with onRegister := [] }
    let t := t.takeHook serial hook
    let t := role.onRegister.foldl perform t
    if (t.role serial).panic = some .registerAfter then t.unwind serial .registerAfter
    else t.single .registered .noPool

def enter (t : Stage) (perform : Stage → Step → Stage) : Stage :=
  match t.system.calls.head? with
  | some (.flushing s _) => t.flush perform s.serial
  | some (.registering s _ hook) => t.register perform s.serial hook
  | none => t

def call (t : Stage) (perform : Stage → Step → Stage) (m : Move Faults) (refusal : Skip) :
    Stage :=
  match t.move m with
  | (.entered, t) => t.enter perform
  | (reply, t) => t.finish (.ofReply refusal reply)

def make (t : Stage) (id : BufferId) (size : Size) (w : Switches) (code : Code Step) : Stage :=
  match t.move (.build (w.applyTo { id, size })) with
  | (.handed s, t) => (t.changeRole s.serial fun r => r.change w code).finish (.surface s)
  | (reply, t) => t.finish (.ofReply .unknownSurface reply)

def set (t : Stage) (serial : Nat) (w : Switches) (code : Code Step) : Stage :=
  if 1 ≤ serial ∧ serial ≤ t.system.device.built then
    ((t.force (.touch serial w.applyTo)).changeRole serial fun r => r.change w code).finish .ok
  else t.finish (.skipped .unknownSurface)

def order (t : Stage) (o : Orders) : Stage :=
  let t := t.force <| .adjust fun f =>
    { panic := o.panic.getD f.panic
      refusals := o.refusals.getD f.refusals
      defects := o.defects.getD f.defects
      oversized := o.oversized.getD f.oversized }
  (o.usage.elim t fun usage => t.force (.reportUsage usage)).finish .ok

def fireKept (t : Stage) (serial : Nat) : Stage :=
  match (t.role serial).hook with
  | none => t.finish (.flag false)
  | some hook =>
    ((t.changeRole serial fun r => { r with hook := none }).force (.fire hook)).finish (.flag true)

/-- The tree of a pool. What is behind the lock of a poisoned pool is left out. -/
def poolTree (o : OpenPool) : Text.Tree :=
  let inside : Text.Fields :=
    if o.poisoned then .nil
    else .field "available" o.pool.available.length (.field "pending" o.pool.pending.size .nil)
  .record "SurfacePool" (.field "config" o.config inside)

def probe (t : Stage) (p : Probe) : Stage :=
  let (reply, system) := t.system.probe p
  let t := { t with system }
  match p, reply with
  | .take _, .done => t.finish .nothing
  | .park .., .done => t.finish .nothing
  | _, reply => t.finish (.ofReply .notHeld reply)

/-- Takes a step. The steps of surfaces that run in between are taken with one unit less of
    `fuel`; every step of a script is taken once at most, so the number of its steps is enough. -/
def perform : Nat → Stage → Step → Stage
  | 0, t, _ => t
  | fuel + 1, t, step =>
    match step with
    | .make id size w code => t.make id size w code
    | .set serial w code => t.set serial w code
    | .drop serial => t.single (.drop serial) .notHeld
    | .order orders => t.order orders
    | .finish serial => t.fireKept serial
    | .acquire size => t.call (perform fuel) (.acquire size) .noPool
    | .submit serial =>
      t.call (perform fuel) (.submit serial) (if t.system.current.isSome then .notHeld else .noPool)
    | .collect => t.single .collect .noPool
    | .shrink => t.single .shrink .noPool
    | .report => t.single .report .noPool
    | .lastReport => t.single .lastReport .noPool
    | .availableCount => t.single .availableCount .noPool
    | .pendingCount => t.single .pendingCount .noPool
    | .cachedBytes => t.single .cachedBytes .noPool
    | .isPending id => t.single (.isPending id) .noPool
    | .config => t.ask fun o => .config o.config
    | .describe spread =>
      t.ask fun o => .text (if spread then (poolTree o).spread 0 else (poolTree o).line)
    | .openPool config => t.single (.openPool config) .noPool
    | .closePool =>
      (t.force .closePool).finish (.flag t.system.current.isSome)
    | .probe p => t.probe p

end Stage

end SurfaceReuse.Scenario
