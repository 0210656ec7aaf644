import ShaderBackend.Pool.Schedule
/-!
A client that keeps a pool busy with simple tasks: some record a number, some panic, some wait for a
gate, some look at their thread or shut their own pool down.
-/
namespace ShaderBackend.Pool

/-- What a task of the client does. -/
inductive Work where
  /-- Records a number and returns it. -/
  | record (number : Nat)
  | panic
  /-- Returns the name of its thread. -/
  | name
  /-- Shuts its own pool down and returns whether the pool has stopped. -/
  | stopPool
  /-- Ends when the gate with this number is open. -/
  | wait (gate : Nat)
  deriving DecidableEq, Repr

inductive Value where
  | number (n : Nat)
  | text (s : String)
  | flag (b : Bool)
  | unit
  deriving DecidableEq, Repr

/-- What the tasks share. -/
structure Desk where
  /-- Numbers in the order in which they were recorded. -/
  recorded : List Nat := []
  /-- Number of gates made. -/
  gates : Nat := 0
  /-- Gates with a lower number are open. -/
  opened : Nat := 0
  deriving DecidableEq, Repr

namespace Desk

/-- Opens every gate made so far. -/
def openAll (d : Desk) : Desk := { d with opened := d.gates }

def addGate (d : Desk) : Desk := { d with gates := d.gates + 1 }

end Desk

def Work.job : Work → Job Desk Value
  | .record number =>
    { run := fun _ _ desk => (some (.number number),
        { desk with recorded := desk.recorded ++ [number] }) }
  | .panic => { run := fun _ _ desk => (none, desk) }
  | .name => { run := fun worker _ desk => (some (.text (workerName worker)), desk) }
  | .stopPool => { run := fun _ pool desk => (some (.flag pool.stop), desk), stopsPool := true }
  | .wait gate =>
    { run := fun _ _ desk => (some .unit, desk), canEnd := fun desk => gate < desk.opened }

/-- A pool, and the tasks whose results the client still waits for, by name. -/
structure Client where
  pool : Running Desk Value
  waits : List (String × Nat) := []

namespace Client

def start (requested : UInt32) (priority : ThreadPriority) (platform : Platform)
    (threshold : Log.Threshold) : Except Failure Client :=
  (Running.start requested priority platform threshold (fun _ desk => desk) {}).map fun pool =>
    { pool := pool.settle }

/-- Hands in a task that nobody waits for. -/
def enqueue (c : Client) (work : Work) : Except Fault Unit × Client :=
  let (result, pool) := c.pool.submit work.job false
  (result.map fun _ => (), { c with pool })

/-- The tasks waited for under other names. -/
def others (c : Client) (name : String) : List (String × Nat) := c.waits.filter (·.1 ≠ name)

/-- Hands in a task and waits for it under a name from now on. -/
def submit (c : Client) (name : String) (work : Work) : Except Fault Unit × Client :=
  match c.pool.submit work.job true with
  | (.ok task, pool) => (.ok (), { pool, waits := (name, task) :: c.others name })
  | (.error cause, pool) => (.error cause, { c with pool })

/-- Makes a gate and hands in a task that waits for it. -/
def block (c : Client) : Except Fault Unit × Client :=
  enqueue { c with pool := c.pool.change Desk.addGate } (.wait c.pool.tasks.env.gates)

/-- Lets all blocked tasks so far come to their end. -/
def openGates (c : Client) : Client := { c with pool := c.pool.change Desk.openAll }

/-- Shuts the pool down; blocked tasks come to their end once the stop flag is up. Gives the state of
the pool when the call returns. -/
def stop (c : Client) : State × Client :=
  let (returned, pool) := c.pool.shutdown Desk.openAll
  (returned, { c with pool })

/-- Looks for the result of a task and goes on waiting; `none` for a name that is not in use. -/
def look (c : Client) (name : String) : Option (Poll Value) × Client :=
  match c.waits.lookup name with
  | some task =>
    let (found, pool) := c.pool.poll task
    (some found, { c with pool })
  | none => (none, c)

/-- Stops waiting for a task. Says whether the name was in use. -/
def forget (c : Client) (name : String) : Bool × Client :=
  match c.waits.lookup name with
  | some task => (true, { pool := c.pool.forget task, waits := c.others name })
  | none => (false, c)

/-- Looks for the result of a task and stops waiting. -/
def take (c : Client) (name : String) : Option (Poll Value) × Client :=
  let (found, c) := c.look name
  (found, (c.forget name).2)

/-- The recorded numbers in order; with more than one worker the order is not fixed, and they are
sorted. -/
def record (c : Client) : List Nat :=
  let desk := c.pool.tasks.env
  if c.pool.tasks.pool.workers.length ≤ 1 then desk.recorded
  else desk.recorded.mergeSort (· ≤ ·)

end Client
end ShaderBackend.Pool
