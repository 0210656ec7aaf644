import ShaderBackend.Fault
import ShaderBackend.Log.Entry
import ShaderBackend.Pool.Sizing
import ShaderBackend.Pool.Tasks
/-!
One schedule among all: whatever can move moves at once, the first worker first, and nobody wakes
without being told. It brings a pool to rest, where only tasks that cannot end yet are running, and
collects what the pool logs on the way. A shutdown is followed up to the moment at which it returns,
which may be before the pool is at rest.
-/
namespace ShaderBackend.Pool

variable {Env Result : Type}

def logSource : String := "bridge::pool"

/-- A pool with its tasks, and what it has logged. -/
structure Running (Env Result : Type) where
  tasks : Tasks Env Result
  threshold : Log.Threshold
  entries : List Log.Entry := []
  /-- What becomes of a result that nobody can receive. -/
  release : Result → Env → Env := fun _ env => env

namespace Running

/-- A new pool of `count` workers. Every worker asks for its priority and logs if it does not get
it. -/
def launch (count : UInt32) (priority : ThreadPriority) (platform : Platform)
    (threshold : Log.Threshold) (release : Result → Env → Env) (env : Env) :
    Running Env Result :=
  { tasks := { pool := .initial count.toNat, env }
    threshold
    release
    entries := threshold.note .info logSource s!"Using {count} compiler threads" ++
      if platform.applies priority then []
      else (List.range count.toNat).flatMap fun index => threshold.note .debug logSource
        s!"Thread priority {priority.title} not applied to worker {index}" }

/-- A new pool of as many workers as asked for. If none are asked for the number is derived, which
may abort. -/
def start (requested : UInt32) (priority : ThreadPriority) (platform : Platform)
    (threshold : Log.Threshold) (release : Result → Env → Env) (env : Env) :
    Except Failure (Running Env Result) :=
  (workerCount requested platform).map fun count =>
    launch count priority platform threshold release env

def withTasks (r : Running Env Result) (tasks : Tasks Env Result)
    (entries : List Log.Entry := []) : Running Env Result :=
  { r with tasks, entries := r.entries ++ entries }

/-- Whether the task of a worker has yet to shut its own pool down. -/
def mustStopPool (t : Tasks Env Result) (worker task : Nat) : Bool :=
  ((t.jobs[task]?.map (·.stopsPool)).getD false)
    && !t.pool.shutdowns.any (·.caller = .worker worker)

/-- The next move of a worker, if it can move without being told. -/
def moveWorker? (r : Running Env Result) (worker : Nat) : Option (Running Env Result) :=
  let t := r.tasks
  match t.pool.workers[worker]? with
  | some .ready | some .notified =>
    (t.pool.lock? worker).map fun pool => r.withTasks { t with pool }
  | some (.running task) =>
    if mustStopPool t worker task then
      (t.pool.beginShutdown? (.worker worker)).map fun pool => r.withTasks { t with pool }
    else
      (t.finish? r.release worker).map fun (panicked, tasks) =>
        r.withTasks tasks (if panicked then
          r.threshold.report logSource "Task panicked on a worker thread" else [])
  | _ => none

/-- The next move of a shutdown. -/
def moveShutdown? (r : Running Env Result) (call : Nat) : Option (Running Env Result) :=
  let t := r.tasks
  match t.pool.takeWorkers? call <|> t.pool.join? call with
  | some pool => some (r.withTasks { t with pool })
  | none =>
    (t.clear? call).map fun (count, tasks) =>
      r.withTasks tasks (if count = 0 then [] else
        r.threshold.note .debug logSource s!"Dropped {count} queued task(s) at shutdown")

/-- The move of the first worker that can move. -/
def moveWorkers? (r : Running Env Result) : Option (Running Env Result) :=
  (List.range r.tasks.pool.workers.length).findSome? r.moveWorker?

/-- The move of the first shutdown that can move. -/
def moveShutdowns? (r : Running Env Result) : Option (Running Env Result) :=
  (List.range r.tasks.pool.shutdowns.length).findSome? r.moveShutdown?

/-- The first move that is possible. -/
def move? (r : Running Env Result) : Option (Running Env Result) :=
  r.moveWorkers? <|> r.moveShutdowns?

/-- The same while somebody waits for one shutdown to return: that one comes before the others, and
nothing moves any more once it has returned. -/
def moveTowards? (call : Nat) (r : Running Env Result) : Option (Running Env Result) :=
  if r.tasks.pool.shutdowns[call]?.any (·.phase = .returned) then none
  else r.moveWorkers? <|> r.moveShutdown? call <|> r.moveShutdowns?

/-- Makes at most `steps` moves. -/
def moves (next? : Running Env Result → Option (Running Env Result)) :
    Nat → Running Env Result → Running Env Result
  | 0, r => r
  | steps + 1, r =>
    match next? r with
    | some next => moves next? steps next
    | none => r

/-- More moves than there can be before rest: a task takes two, with a shutdown of its own as many
again as there are workers, and so does each shutdown under way. -/
def moveLimit (s : State) : Nat :=
  (s.queue.length + s.workers.length + s.shutdowns.length + 1) * (s.workers.length + 8)

/-- The pool at rest. -/
def settle (r : Running Env Result) : Running Env Result :=
  moves move? (moveLimit r.tasks.pool) r

/-- Hands a task to the pool and lets it come to rest. Gives the number of the task. -/
def submit (r : Running Env Result) (job : Job Env Result) (awaited : Bool) :
    Except Fault Nat × Running Env Result :=
  let pool := r.tasks.pool
  match r.tasks.submit? job awaited pool.firstWaiting? with
  | some tasks => (.ok pool.accepted, (r.withTasks tasks).settle)
  | none => (.error .poolStopped,
      r.withTasks r.tasks (r.threshold.report logSource "Task enqueued after shutdown"))

/-- Calls shutdown from outside. Once the stop flag is up, `change` is made to the surroundings.
Gives the state of the pool at the moment at which the call returns, and the pool once it has come to
rest after that. -/
def shutdown (r : Running Env Result) (change : Env → Env) : State × Running Env Result :=
  match r.tasks.pool.beginShutdown? .outside with
  | some pool =>
    let begun := r.withTasks { r.tasks with pool, env := change r.tasks.env }
    let call := r.tasks.pool.shutdowns.length
    let returned := moves (moveTowards? call) (moveLimit pool) begun
    (returned.tasks.pool, returned.settle)
  | none => (r.tasks.pool, r)

/-- Changes the surroundings and lets the pool come to rest. -/
def change (r : Running Env Result) (change : Env → Env) : Running Env Result :=
  (r.withTasks { r.tasks with env := change r.tasks.env }).settle

/-- Looks for the result of a task; a task that nobody waits for is reported as aborted. -/
def poll (r : Running Env Result) (task : Nat) : Poll Result × Running Env Result :=
  match r.tasks.poll? task with
  | some (found, tasks) => (found, r.withTasks tasks)
  | none => (.aborted, r)

/-- Gives up waiting for a task. -/
def forget (r : Running Env Result) (task : Nat) : Running Env Result :=
  r.withTasks (r.tasks.forget r.release task)

end Running
end ShaderBackend.Pool
