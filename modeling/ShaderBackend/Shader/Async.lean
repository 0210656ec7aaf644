import ShaderBackend.Pool.Schedule
import ShaderBackend.Shader.Basic
/-!
Creation of modules on the workers of a pool. The result travels through the slot of the task; a
module that nobody can receive is dropped.
-/
namespace ShaderBackend.Shader

variable {State Handle : Type}

/-- What the tasks share: the device, and what was logged. -/
structure Workshop (State : Type) where
  device : State
  entries : List Log.Entry := []

/-- Result of a creation that came to an end. -/
abbrev ModuleResult (Handle : Type) := Except Fault (ShaderModule Handle)

/-- The task that creates a module. An abort ends the task without a result. -/
def moduleJob (factory : Factory State ModuleRequest Handle) (s : Shader) (m : DescriptorMapping)
    (options : ModuleOptions) : Pool.Job (Workshop State) (ModuleResult Handle) where
  run _ _ shop :=
    let creation := s.createModule factory m options shop.device
    let shop := { device := creation.device, entries := shop.entries ++ creation.entries }
    match creation.result with
    | .ok made => (some (.ok made), shop)
    | .error (.fault cause) => (some (.error cause), shop)
    | .error .abort => (none, shop)

/-- Drops a module that nobody can receive. -/
def releaseModule (factory : Factory State ModuleRequest Handle) :
    ModuleResult Handle → Workshop State → Workshop State
  | .ok made, shop => { shop with device := made.drop factory shop.device }
  | .error _, shop => shop

/-- Creates a module on a new pool of one worker that logs nothing, and waits for it. The pool may
have been shut down before. -/
def createModuleAsync (factory : Factory State ModuleRequest Handle) (s : Shader)
    (m : DescriptorMapping) (options : ModuleOptions) (stopped : Bool) (device : State) :
    ModuleResult Handle × Workshop State :=
  let pool : Pool.Running (Workshop State) (ModuleResult Handle) :=
    (Pool.Running.launch 1 .normal (.portable 1) none (releaseModule factory) { device }).settle
  let pool := if stopped then (pool.shutdown id).2 else pool
  match pool.submit (moduleJob factory s m options) true with
  | (.error cause, pool) => (.error cause, pool.tasks.env)
  | (.ok task, pool) =>
    let (found, pool) := pool.poll task
    let result := match found with
      | .delivered result => result
      | .pending | .aborted => .error .taskAborted
    (result, pool.tasks.env)

end ShaderBackend.Shader
