/-!
A pool of workers that share one queue, as a transition system. A section that holds the lock is one
transition, and so is the running of a task. Tasks are known by number, in the order in which they
were accepted. What ran, what ended and what was dropped is kept as history.
-/
namespace ShaderBackend.Pool

/-- Where a worker stands between two transitions. -/
inductive Worker where
  /-- About to take the lock at the top of its loop. -/
  | ready
  /-- Inside the wait, and not told to wake. -/
  | waiting
  /-- Inside the wait, told to wake, and without the lock as yet. -/
  | notified
  | running (task : Nat)
  | exited
  deriving DecidableEq, Repr

/-- Who asks for a shutdown: somebody outside, or the task that a worker runs. -/
inductive Caller where
  | outside
  | worker (index : Nat)
  deriving DecidableEq, Repr

/-- How far a shutdown has come. -/
inductive Phase where
  /-- The stop flag is up. -/
  | stopping
  /-- These workers are still to be joined. -/
  | joining (workers : List Nat)
  | returned
  deriving DecidableEq, Repr

/-- One call of shutdown. -/
structure Shutdown where
  caller : Caller
  phase : Phase
  deriving DecidableEq, Repr

structure State where
  workers : List Worker
  /-- Accepted tasks that no worker has taken. -/
  queue : List Nat := []
  stop : Bool := false
  /-- Counter of the workers that are not inside the wait. -/
  busy : Int
  /-- Workers that no shutdown has taken over for joining. -/
  joinable : List Nat
  /-- Number of tasks accepted. -/
  accepted : Nat := 0
  started : List Nat := []
  finished : List Nat := []
  dropped : List Nat := []
  shutdowns : List Shutdown := []
  deriving DecidableEq, Repr

/-- A pool whose workers have just started. -/
def State.initial (count : Nat) : State :=
  { workers := List.replicate count .ready, busy := count, joinable := List.range count }

namespace State

def setWorker (s : State) (index : Nat) (w : Worker) : State :=
  { s with workers := s.workers.set index w }

/-- Gives the first task of the queue to a worker. -/
def takeTask (s : State) (index : Nat) : State :=
  match s.queue with
  | [] => s
  | task :: rest =>
    { s.setWorker index (.running task) with queue := rest, started := s.started ++ [task] }

/-- The section at the top of the loop: a worker leaves if the pool stops, waits if there is nothing
to do, and else takes a task. -/
def lockReady (s : State) (index : Nat) : State :=
  if s.stop then { s.setWorker index .exited with busy := s.busy - 1 }
  else if s.queue.isEmpty then { s.setWorker index .waiting with busy := s.busy - 1 }
  else s.takeTask index

/-- The section of a worker that wakes: it takes a task if there is one, even if the pool stops;
else it leaves or goes on waiting. A worker that leaves here has been counted off before. -/
def lockWaking (s : State) (index : Nat) : State :=
  if !s.queue.isEmpty then { s.takeTask index with busy := s.busy + 1 }
  else if s.stop then s.setWorker index .exited
  else s.setWorker index .waiting

/-- A worker takes the lock. A waiting worker may wake although nobody told it to. -/
def lock? (s : State) (index : Nat) : Option State :=
  match s.workers[index]? with
  | some .ready => some (s.lockReady index)
  | some .waiting | some .notified => some (s.lockWaking index)
  | _ => none

/-- Whether a shutdown called by the task of a worker has not returned. -/
def stopsItself (s : State) (index : Nat) : Bool :=
  s.shutdowns.any fun call => call.caller = .worker index && call.phase ≠ .returned

/-- The task of a worker ends, normally or not. -/
def finish? (s : State) (index : Nat) : Option State :=
  match s.workers[index]? with
  | some (.running task) =>
    if s.stopsItself index then none
    else some { s.setWorker index .ready with finished := s.finished ++ [task] }
  | _ => none

/-- Whether this is a worker that a single notification may reach. If nobody waits the notification
reaches nobody. -/
def canNotify (s : State) : Option Nat → Bool
  | some index => s.workers[index]? = some .waiting
  | none => !s.workers.contains .waiting

/-- Accepts a task and notifies one waiting worker, if there is one. Nothing is accepted once the
pool stops. -/
def enqueue? (s : State) (notified : Option Nat) : Option State :=
  if s.stop || !s.canNotify notified then none
  else
    let s := { s with queue := s.queue ++ [s.accepted], accepted := s.accepted + 1 }
    some (match notified with
      | some index => s.setWorker index .notified
      | none => s)

/-- The worker that a notification reaches if it goes to the first that waits. -/
def firstWaiting? (s : State) : Option Nat := s.workers.findIdx? (· = .waiting)

/-- Whether the pool takes no task on. -/
def refuses (s : State) : Bool := (s.enqueue? s.firstWaiting?).isNone

/-- A waiting worker is told to wake; any other is left alone. -/
def wake : Worker → Worker
  | .waiting => .notified
  | w => w

/-- Whether a caller can ask for a shutdown now. A task does one thing at a time. -/
def canCall (s : State) : Caller → Bool
  | .outside => true
  | .worker index =>
    !s.stopsItself index && match s.workers[index]? with
      | some (.running _) => true
      | _ => false

/-- A shutdown begins: the pool stops and every waiting worker is told to wake. -/
def beginShutdown? (s : State) (caller : Caller) : Option State :=
  if s.canCall caller then
    some { s with stop := true
                  workers := s.workers.map wake
                  shutdowns := s.shutdowns ++ [⟨caller, .stopping⟩] }
  else none

def setPhase (s : State) (call : Nat) (phase : Phase) : State :=
  { s with shutdowns := s.shutdowns.modify call fun c => { c with phase } }

/-- A shutdown takes over the workers that nobody has taken over yet. -/
def takeWorkers? (s : State) (call : Nat) : Option State :=
  match s.shutdowns[call]? with
  | some ⟨_, .stopping⟩ => some { s.setPhase call (.joining s.joinable) with joinable := [] }
  | _ => none

/-- A shutdown joins the next worker, which must have left, or passes over the worker that it runs
on. -/
def join? (s : State) (call : Nat) : Option State :=
  match s.shutdowns[call]? with
  | some ⟨caller, .joining (index :: rest)⟩ =>
    if caller = .worker index ∨ s.workers[index]? = some .exited then
      some (s.setPhase call (.joining rest))
    else none
  | _ => none

/-- A shutdown that has joined its workers drops what is still queued and returns. -/
def clear? (s : State) (call : Nat) : Option State :=
  match s.shutdowns[call]? with
  | some ⟨_, .joining []⟩ =>
    some { s.setPhase call .returned with queue := [], dropped := s.dropped ++ s.queue }
  | _ => none

/-- Number of workers that the counter reports as not waiting. -/
def running (s : State) : Nat := s.busy.toNat

def pending (s : State) : Nat := s.queue.length

end State

/-- The transitions. -/
inductive Event where
  /-- A task is accepted; the notification reaches this worker. -/
  | enqueue (notified : Option Nat)
  | lock (worker : Nat)
  | finish (worker : Nat)
  | beginShutdown (caller : Caller)
  | takeWorkers (call : Nat)
  | join (call : Nat)
  | clear (call : Nat)
  deriving DecidableEq, Repr

/-- The state after a transition, `none` where it cannot happen. -/
def State.step? (s : State) : Event → Option State
  | .enqueue notified => s.enqueue? notified
  | .lock worker => s.lock? worker
  | .finish worker => s.finish? worker
  | .beginShutdown caller => s.beginShutdown? caller
  | .takeWorkers call => s.takeWorkers? call
  | .join call => s.join? call
  | .clear call => s.clear? call

/-- The states that some interleaving of transitions leads to. -/
inductive Reaches (start : State) : List Event → State → Prop where
  | start : Reaches start [] start
  | step {events : List Event} {s t : State} {event : Event}
      (prior : Reaches start events s) (last : s.step? event = some t) :
      Reaches start (events ++ [event]) t

end ShaderBackend.Pool
