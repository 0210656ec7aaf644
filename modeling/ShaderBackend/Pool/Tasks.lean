import ShaderBackend.Pool.Slot
import ShaderBackend.Pool.State
/-!
A pool with its tasks: what each does to the surroundings, and where it leaves its result. A result
that nobody can receive any more is released.
-/
namespace ShaderBackend.Pool

/-- What a task does. -/
structure Job (Env Result : Type) where
  /-- Effect and result, given the worker and the pool at the end of the task; no result if the task
  panics. -/
  run : Nat → State → Env → Option Result × Env
  /-- Whether the task can come to its end now. -/
  canEnd : Env → Bool := fun _ => true
  /-- Whether the task shuts its own pool down before it ends. -/
  stopsPool : Bool := false

structure Tasks (Env Result : Type) where
  pool : State
  /-- The accepted tasks by number. -/
  jobs : List (Job Env Result) := []
  /-- Their slots; a task that nobody waits for has none. -/
  slots : List (Option (Slot Result)) := []
  env : Env

namespace Tasks

variable {Env Result : Type}

/-- Releases what came back from a slot. -/
def releaseTo (release : Result → Env → Env) (value : Option Result) (env : Env) : Env :=
  match value with
  | some value => release value env
  | none => env

/-- Accepts a job. Its number is the count of those accepted before. -/
def submit? (t : Tasks Env Result) (job : Job Env Result) (awaited : Bool)
    (notified : Option Nat) : Option (Tasks Env Result) :=
  (t.pool.enqueue? notified).map fun pool =>
    { t with pool
             jobs := t.jobs ++ [job]
             slots := t.slots ++ [if awaited then some {} else none] }

/-- Puts a result, or the lack of one, into the slot of a task. -/
def settleSlot (release : Result → Env → Env) (task : Nat) (result : Option Result)
    (t : Tasks Env Result) : Tasks Env Result :=
  match (t.slots[task]?).join, result with
  | some slot, some value =>
    let (slot, unclaimed) := slot.send value
    { t with slots := t.slots.set task (some slot), env := releaseTo release unclaimed t.env }
  | some slot, none => { t with slots := t.slots.set task (some slot.close) }
  | none, _ => { t with env := releaseTo release result t.env }

/-- The task of a worker does its work and ends. Says whether it panicked. -/
def finish? (release : Result → Env → Env) (t : Tasks Env Result) (worker : Nat) :
    Option (Bool × Tasks Env Result) :=
  match t.pool.workers[worker]? with
  | some (.running task) =>
    match t.jobs[task]?, t.pool.finish? worker with
    | some job, some pool =>
      if job.canEnd t.env then
        let (result, env) := job.run worker t.pool t.env
        some (result.isNone, settleSlot release task result { t with pool, env })
      else none
    | _, _ => none
  | _ => none

/-- A shutdown drops the queue: the slots of the dropped tasks lose their task. Gives the number of
tasks dropped. -/
def clear? (t : Tasks Env Result) (call : Nat) : Option (Nat × Tasks Env Result) :=
  (t.pool.clear? call).map fun pool =>
    (t.pool.queue.length,
      { t with pool
               slots := t.pool.queue.foldl
                 (fun slots task => slots.modify task (·.map Slot.close)) t.slots })

/-- The waiter of a task looks into its slot; `none` if it has no slot. -/
def poll? (t : Tasks Env Result) (task : Nat) : Option (Poll Result × Tasks Env Result) :=
  ((t.slots[task]?).join).map fun slot =>
    let (found, slot) := slot.poll
    (found, { t with slots := t.slots.set task (some slot) })

/-- The waiter of a task goes. -/
def forget (release : Result → Env → Env) (t : Tasks Env Result) (task : Nat) :
    Tasks Env Result :=
  match (t.slots[task]?).join with
  | some slot =>
    let (slot, unclaimed) := slot.forget
    { t with slots := t.slots.set task (some slot), env := releaseTo release unclaimed t.env }
  | none => t

end Tasks
end ShaderBackend.Pool
