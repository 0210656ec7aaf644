import ShaderBackend.Pool.Tasks
import ShaderBackend.Proofs.Pool.Order

/-! Tasks that leave results for their waiters, step by step. A task leaves its result first and gives
up its end of the slot when it ends, so that a waiter may look in between. What the tasks made and
what the waiters found is kept as history. -/
namespace ShaderBackend.Pool

variable {Env Result : Type}

/-- Whether a waiter found that the result may still come. -/
def Poll.isPending : Poll Result → Bool
  | .pending => true
  | .delivered _ | .aborted => false

/-- The task leaves its result and keeps its end. -/
def Slot.leave (slot : Slot Result) (value : Result) : Slot Result × Option Result :=
  if slot.hasWaiter then ({ slot with value := some value }, none) else (slot, some value)

/-- A sender leaves its result, if somebody can still receive it, and is gone in either case. -/
theorem Slot.send_eq (slot : Slot Result) (value : Result) :
    slot.send value = ((slot.leave value).1.close, (slot.leave value).2) := by
  rw [send, leave]
  split <;> rfl

namespace Tasks

/-- Slot of a task that somebody waits for, or has waited for. -/
def slot? (t : Tasks Env Result) (task : Nat) : Option (Slot Result) := (t.slots[task]?).join

/-- What a task made goes into its slot, and the task keeps its end. -/
def leave (release : Result → Env → Env) (task : Nat) (result : Option Result)
    (t : Tasks Env Result) : Tasks Env Result :=
  match t.slot? task, result with
  | some slot, some value =>
    let (slot, unclaimed) := slot.leave value
    { t with slots := t.slots.set task (some slot), env := releaseTo release unclaimed t.env }
  | some _, none => t
  | none, _ => { t with env := releaseTo release result t.env }

/-- A task gives up its end. -/
def close (task : Nat) (t : Tasks Env Result) : Tasks Env Result :=
  { t with slots := t.slots.modify task (·.map Slot.close) }

section Slots

variable {slots : List (Option (Slot Result))} {task : Nat} {slot : Slot Result}

/-- Only accepted tasks have slots. -/
theorem lt_of_join_getElem? (h : (slots[task]?).join = some slot) : task < slots.length :=
  (List.getElem?_eq_some_iff.1 (Option.join_eq_some_iff.1 h)).1

/-- A slot that changes leaves the slots of the other tasks as they are. -/
theorem join_getElem?_set (hOld : task < slots.length) (other : Nat) :
    ((slots.set task (some slot))[other]?).join =
      if task = other then some slot else (slots[other]?).join := by
  split
  · rename_i hSame
    rw [← hSame, List.getElem?_set_self hOld, Option.join_some]
  · rename_i hOther
    rw [List.getElem?_set_ne hOther]

theorem modify_close_of_none (h : (slots[task]?).join = none) :
    slots.modify task (·.map Slot.close) = slots := by
  rw [List.modify_eq_set_getElem?]
  cases hAt : slots[task]? with
  | none => rfl
  | some entry =>
      obtain ⟨hInside, rfl⟩ := List.getElem?_eq_some_iff.1 hAt
      rw [hAt, Option.join_some] at h
      show slots.set task (slots[task].map Slot.close) = slots
      rw [h, Option.map_none, ← h, List.set_getElem_self]

theorem modify_close_of_some (h : (slots[task]?).join = some slot) :
    slots.modify task (·.map Slot.close) = slots.set task (some slot.close) := by
  rw [List.modify_eq_set_getElem?, Option.join_eq_some_iff.1 h]
  rfl

/-- A sender that goes closes the slot of its own task only. -/
theorem join_getElem?_modify_close (task other : Nat) :
    ((slots.modify task (·.map Slot.close))[other]?).join =
      if task = other then (slots[other]?).join.map Slot.close else (slots[other]?).join := by
  cases hAt : (slots[task]?).join with
  | none =>
      rw [modify_close_of_none hAt]
      split
      · rename_i hSame
        rw [← hSame, hAt, Option.map_none]
      · rfl
  | some slot =>
      rw [modify_close_of_some hAt, join_getElem?_set (lt_of_join_getElem? hAt)]
      split
      · rename_i hSame
        rw [← hSame, hAt, Option.map_some]
      · rfl

end Slots

/-- Settling a slot is leaving the result and then giving up the end. -/
theorem settleSlot_eq (release : Result → Env → Env) (task : Nat) (result : Option Result)
    (t : Tasks Env Result) :
    t.settleSlot release task result = (t.leave release task result).close task := by
  cases hSlot : (t.slots[task]?).join with
  | none => simp [settleSlot, leave, slot?, close, hSlot, modify_close_of_none hSlot]
  | some slot =>
      cases result with
      | none => simp [settleSlot, leave, slot?, close, hSlot, modify_close_of_some hSlot]
      | some value =>
          have hInside := lt_of_join_getElem? hSlot
          have hLeft : ((t.slots.set task (some (slot.leave value).1))[task]?).join =
              some (slot.leave value).1 := by rw [join_getElem?_set hInside, if_pos rfl]
          simp [settleSlot, leave, slot?, close, hSlot, Slot.send_eq, modify_close_of_some hLeft]

/-- What becomes of a result is no matter of the pool. -/
theorem pool_leave (release : Result → Env → Env) (task : Nat) (result : Option Result)
    (t : Tasks Env Result) : (t.leave release task result).pool = t.pool := by
  unfold leave
  split <;> rfl

theorem pool_close (task : Nat) (t : Tasks Env Result) : (t.close task).pool = t.pool := rfl

/-- Nor does the pool learn that nobody waits any longer. -/
theorem pool_forget (release : Result → Env → Env) (t : Tasks Env Result) (task : Nat) :
    (t.forget release task).pool = t.pool := by
  unfold forget
  split <;> rfl

/-- The pool takes no part when a result is left. -/
theorem leave_with_pool (release : Result → Env → Env) (task : Nat) (result : Option Result)
    (t : Tasks Env Result) (pool : State) :
    { t with pool }.leave release task result = { t.leave release task result with pool } := by
  unfold leave slot?
  split
  · rename_i slot value hSlot
    rw [hSlot]
  · rename_i hSlot
    rw [hSlot]
  · rename_i hSlot
    rw [hSlot]

end Tasks

/-- What came of the work of a task; no result if the task panicked. -/
structure Outcome (Result : Type) where
  task : Nat
  result : Option Result
  deriving DecidableEq, Repr

/-- What a waiter found when it looked. -/
structure Finding (Result : Type) where
  task : Nat
  found : Poll Result
  deriving DecidableEq, Repr

/-- A pool with its tasks, with what they made and what their waiters found. -/
structure Exchange (Env Result : Type) where
  tasks : Tasks Env Result
  /-- What came of the tasks that have done their work. A task goes on running until it ends. -/
  outcomes : List (Outcome Result) := []
  findings : List (Finding Result) := []

/-- What happens next at a pool, to its tasks or to their waiters. -/
inductive Move (Env Result : Type) where
  /-- A task is accepted. If it is awaited, somebody waits for its result. -/
  | submit (job : Job Env Result) (awaited : Bool) (notified : Option Nat)
  | lock (worker : Nat)
  /-- The task of a worker does its work and leaves what it made. -/
  | work (worker : Nat)
  /-- The task of a worker ends, and its end of the slot goes. -/
  | finish (worker : Nat)
  | beginShutdown (caller : Caller)
  | takeWorkers (call : Nat)
  | join (call : Nat)
  | clear (call : Nat)
  /-- The waiter of a task looks, and goes on waiting. -/
  | look (task : Nat)
  /-- The waiter of a task waits until there is something to find, and goes. -/
  | wait (task : Nat)
  /-- The waiter of a task goes. -/
  | forget (task : Nat)
  /-- The surroundings change. -/
  | surround (env : Env)

/-- A section of a worker or of a shutdown that ends no task and drops none. -/
def Event.isSection : Event → Bool
  | .lock _ | .beginShutdown _ | .takeWorkers _ | .join _ => true
  | .enqueue _ | .finish _ | .clear _ => false

/-- The section of the pool that a move enters, if it enters one. -/
def Move.event? : Move Env Result → Option Event
  | .submit _ _ notified => some (.enqueue notified)
  | .lock worker => some (.lock worker)
  | .finish worker => some (.finish worker)
  | .beginShutdown caller => some (.beginShutdown caller)
  | .takeWorkers call => some (.takeWorkers call)
  | .join call => some (.join call)
  | .clear call => some (.clear call)
  | .work _ | .look _ | .wait _ | .forget _ | .surround _ => none

namespace Exchange

def initial (count : Nat) (env : Env) : Exchange Env Result :=
  { tasks := { pool := .initial count, env } }

/-- Whether the waiter of a task still has its end. -/
def isHeld (x : Exchange Env Result) (task : Nat) : Bool := (x.tasks.slot? task).any (·.hasWaiter)

/-- Whether a task has done its work. -/
def hasWorked (x : Exchange Env Result) (task : Nat) : Bool := x.outcomes.any (·.task = task)

/-- A section of the pool that no slot takes part in. -/
def enter? (x : Exchange Env Result) (event : Event) : Option (Exchange Env Result) :=
  (x.tasks.pool.step? event).map fun pool => { x with tasks := { x.tasks with pool } }

/-- The task of a worker does its work, once. A task that shuts its own pool down does so before. -/
def work? (release : Result → Env → Env) (x : Exchange Env Result) (worker : Nat) :
    Option (Exchange Env Result) :=
  match x.tasks.pool.workers[worker]? with
  | some (.running task) =>
    match x.tasks.jobs[task]? with
    | some job =>
      if x.hasWorked task || x.tasks.pool.stopsItself worker || !job.canEnd x.tasks.env then none
      else
        let made := job.run worker x.tasks.pool x.tasks.env
        some { x with tasks := { x.tasks with env := made.2 }.leave release task made.1
                      outcomes := x.outcomes ++ [⟨task, made.1⟩] }
    | none => none
  | _ => none

/-- The task of a worker ends, having done its work. -/
def finish? (x : Exchange Env Result) (worker : Nat) : Option (Exchange Env Result) :=
  match x.tasks.pool.workers[worker]? with
  | some (.running task) =>
    if x.hasWorked task then
      (x.tasks.pool.finish? worker).map fun pool =>
        { x with tasks := { x.tasks with pool }.close task }
    else none
  | _ => none

/-- Writes down what the waiter of a task found. -/
def note (x : Exchange Env Result) (task : Nat) (found : Poll Result) (tasks : Tasks Env Result) :
    Exchange Env Result :=
  { x with tasks, findings := x.findings ++ [⟨task, found⟩] }

/-- The waiter of a task looks. -/
def look? (x : Exchange Env Result) (task : Nat) : Option (Exchange Env Result) :=
  if x.isHeld task then
    (x.tasks.poll? task).map fun (found, tasks) => x.note task found tasks
  else none

/-- The waiter of a task looks for the last time, which takes until there is something to find. -/
def wait? (release : Result → Env → Env) (x : Exchange Env Result) (task : Nat) :
    Option (Exchange Env Result) :=
  if x.isHeld task then
    (x.tasks.poll? task).bind fun (found, tasks) =>
      if found.isPending then none else some (x.note task found (tasks.forget release task))
  else none

/-- The waiter of a task goes. -/
def forget? (release : Result → Env → Env) (x : Exchange Env Result) (task : Nat) :
    Option (Exchange Env Result) :=
  if x.isHeld task then some { x with tasks := x.tasks.forget release task } else none

/-- What a move leads to, `none` where it cannot happen. `release` is what becomes of a result that
nobody can receive any more. -/
def step? (release : Result → Env → Env) (x : Exchange Env Result) :
    Move Env Result → Option (Exchange Env Result)
  | .submit job awaited notified =>
    (x.tasks.submit? job awaited notified).map fun tasks => { x with tasks }
  | .lock worker => x.enter? (.lock worker)
  | .work worker => x.work? release worker
  | .finish worker => x.finish? worker
  | .beginShutdown caller => x.enter? (.beginShutdown caller)
  | .takeWorkers call => x.enter? (.takeWorkers call)
  | .join call => x.enter? (.join call)
  | .clear call => (x.tasks.clear? call).map fun (_, tasks) => { x with tasks }
  | .look task => x.look? task
  | .wait task => x.wait? release task
  | .forget task => x.forget? release task
  | .surround env => some { x with tasks := { x.tasks with env } }

/-- What a run of moves leads to, `none` if one of them cannot happen. -/
def run? (release : Result → Env → Env) (x : Exchange Env Result) (moves : List (Move Env Result)) :
    Option (Exchange Env Result) := moves.foldlM (step? release) x

variable {release : Result → Env → Env} {x y : Exchange Env Result}

theorem hasWorked_concat (task : Nat) (result : Option Result) (tasks : Tasks Env Result) :
    hasWorked { x with tasks, outcomes := x.outcomes ++ [⟨task, result⟩] } task = true := by
  simp [hasWorked]

/-- The paths through the moves. -/
inductive Step (release : Result → Env → Env) (x : Exchange Env Result) :
    Move Env Result → Exchange Env Result → Prop where
  | submit {job : Job Env Result} {awaited : Bool} {notified : Option Nat} {pool : State}
      (hPool : Pool.Step x.tasks.pool (.enqueue notified) pool) :
      Step release x (.submit job awaited notified)
        { x with tasks := { x.tasks with
            pool
            jobs := x.tasks.jobs ++ [job]
            slots := x.tasks.slots ++ [if awaited then some {} else none] } }
  | enter {move : Move Env Result} {event : Event} {pool : State}
      (hPool : Pool.Step x.tasks.pool event pool) (hSection : event.isSection = true)
      (hEvent : move.event? = some event) :
      Step release x move { x with tasks := { x.tasks with pool } }
  | work {worker task : Nat} {job : Job Env Result} {result : Option Result} {env : Env}
      (hRuns : x.tasks.pool.workers[worker]? = some (.running task))
      (hJob : x.tasks.jobs[task]? = some job) (hNew : x.hasWorked task = false)
      (hMade : job.run worker x.tasks.pool x.tasks.env = (result, env)) :
      Step release x (.work worker)
        { x with tasks := { x.tasks with env }.leave release task result
                 outcomes := x.outcomes ++ [⟨task, result⟩] }
  | finish {worker task : Nat} (hWorked : x.hasWorked task = true)
      (hPool : Pool.Step x.tasks.pool (.finish worker)
        { x.tasks.pool with workers := x.tasks.pool.workers.set worker .ready
                            finished := x.tasks.pool.finished ++ [task] }) :
      Step release x (.finish worker)
        { x with tasks := { x.tasks with
            pool := { x.tasks.pool with workers := x.tasks.pool.workers.set worker .ready
                                        finished := x.tasks.pool.finished ++ [task] } }.close task }
  | clear {call : Nat} {pool : State} (hPool : Pool.Step x.tasks.pool (.clear call) pool) :
      Step release x (.clear call)
        { x with tasks := { x.tasks with
            pool
            slots := x.tasks.pool.queue.foldl
              (fun slots task => slots.modify task (·.map Slot.close)) x.tasks.slots } }
  | look {task : Nat} {slot : Slot Result} (hSlot : x.tasks.slot? task = some slot)
      (hHeld : slot.hasWaiter = true) :
      Step release x (.look task) (x.note task slot.poll.1
        { x.tasks with slots := x.tasks.slots.set task (some slot.poll.2) })
  | wait {task : Nat} {slot : Slot Result} (hSlot : x.tasks.slot? task = some slot)
      (hHeld : slot.hasWaiter = true) (hFound : slot.poll.1.isPending = false) :
      Step release x (.wait task) (x.note task slot.poll.1 (Tasks.forget release
        { x.tasks with slots := x.tasks.slots.set task (some slot.poll.2) } task))
  | forget {task : Nat} (hHeld : x.isHeld task = true) :
      Step release x (.forget task) { x with tasks := x.tasks.forget release task }
  | surround (env : Env) :
      Step release x (.surround env) { x with tasks := { x.tasks with env } }

/-- A task is held as long as somebody waits at its slot. -/
theorem isHeld_iff {task : Nat} :
    x.isHeld task = true ↔ ∃ slot, x.tasks.slot? task = some slot ∧ slot.hasWaiter = true := by
  rw [isHeld, Option.any_eq_true]

/-- Only who waits can look. -/
theorem exists_of_look? {task : Nat} (h : x.look? task = some y) :
    ∃ slot, x.tasks.slot? task = some slot ∧ slot.hasWaiter = true := by
  rw [look?] at h
  split at h
  · exact isHeld_iff.1 ‹_›
  · cases h

theorem exists_of_wait? {task : Nat} (h : x.wait? release task = some y) :
    ∃ slot, x.tasks.slot? task = some slot ∧ slot.hasWaiter = true := by
  rw [wait?] at h
  split at h
  · exact isHeld_iff.1 ‹_›
  · cases h

/-- A look tells what is in the slot and takes it out. -/
theorem look?_eq {task : Nat} {slot : Slot Result} (hSlot : x.tasks.slot? task = some slot)
    (hHeld : slot.hasWaiter = true) :
    x.look? task = some (x.note task slot.poll.1
      { x.tasks with slots := x.tasks.slots.set task (some slot.poll.2) }) := by
  rw [look?, if_pos (isHeld_iff.2 ⟨slot, hSlot, hHeld⟩), Tasks.poll?, ← Tasks.slot?, hSlot]
  rfl

/-- A wait that returns is a look that found something, and gives up the place at the slot. -/
theorem wait?_eq {task : Nat} {slot : Slot Result} (hSlot : x.tasks.slot? task = some slot)
    (hHeld : slot.hasWaiter = true) :
    x.wait? release task = if slot.poll.1.isPending then none else
      some (x.note task slot.poll.1 (Tasks.forget release
        { x.tasks with slots := x.tasks.slots.set task (some slot.poll.2) } task)) := by
  rw [wait?, if_pos (isHeld_iff.2 ⟨slot, hSlot, hHeld⟩), Tasks.poll?, ← Tasks.slot?, hSlot]
  rfl

theorem step_of_enter? {move : Move Env Result} {event : Event} (h : x.enter? event = some y)
    (hSection : event.isSection = true) (hEvent : move.event? = some event) :
    Step release x move y := by
  obtain ⟨pool, hPool, rfl⟩ := Option.map_eq_some_iff.1 h
  exact .enter (State.step_of_step? hPool) hSection hEvent

theorem step_of_work? {worker : Nat} (h : x.work? release worker = some y) :
    Step release x (.work worker) y := by
  rw [work?] at h
  split at h
  · rename_i task hRuns
    split at h
    · rename_i job hJob
      split at h
      · cases h
      · rename_i hGoes
        simp only [Bool.or_eq_true, not_or, Bool.not_eq_true] at hGoes
        cases h
        exact .work hRuns hJob hGoes.1.1 rfl
    · cases h
  · cases h

theorem step_of_finish? {worker : Nat} (h : x.finish? worker = some y) :
    Step release x (.finish worker) y := by
  rw [finish?] at h
  split at h
  · rename_i task hRuns
    split at h
    · rename_i hWorked
      obtain ⟨pool, hPool, rfl⟩ := Option.map_eq_some_iff.1 h
      have hStep := State.step_of_finish? hPool
      cases hStep with
      | finish hFree hOld =>
          cases hRuns.symm.trans hOld
          exact .finish hWorked (.finish hFree hOld)
    · cases h
  · cases h

/-- The function makes no move that the relation does not allow. -/
theorem step_of_step? {move : Move Env Result} (h : x.step? release move = some y) :
    Step release x move y := by
  cases move with
  | submit job awaited notified =>
      obtain ⟨tasks, hTasks, rfl⟩ := Option.map_eq_some_iff.1 h
      obtain ⟨pool, hPool, rfl⟩ := Option.map_eq_some_iff.1 hTasks
      exact .submit (State.step_of_enqueue? hPool)
  | lock | beginShutdown | takeWorkers | join => exact step_of_enter? h rfl rfl
  | work worker => exact step_of_work? h
  | finish worker => exact step_of_finish? h
  | clear call =>
      obtain ⟨cleared, hTasks, rfl⟩ := Option.map_eq_some_iff.1 h
      obtain ⟨pool, hPool, rfl⟩ := Option.map_eq_some_iff.1 hTasks
      exact .clear (State.step_of_clear? hPool)
  | look task =>
      obtain ⟨slot, hSlot, hHeld⟩ := exists_of_look? h
      rw [step?, look?_eq hSlot hHeld] at h
      cases h
      exact .look hSlot hHeld
  | wait task =>
      obtain ⟨slot, hSlot, hHeld⟩ := exists_of_wait? h
      rw [step?, wait?_eq hSlot hHeld] at h
      split at h
      · cases h
      · rename_i hFound
        cases h
        exact .wait hSlot hHeld (Bool.eq_false_iff.2 hFound)
  | forget task =>
      rw [step?, forget?] at h
      split at h
      · rename_i hHeld
        cases h
        exact .forget hHeld
      · cases h
  | surround env =>
      cases h
      exact .surround env

/-- What changes the pool is a step of the pool. -/
theorem pool_enter? {event : Event} (h : x.enter? event = some y) :
    Pool.Step x.tasks.pool event y.tasks.pool := by
  obtain ⟨pool, hPool, rfl⟩ := Option.map_eq_some_iff.1 h
  exact State.step_of_step? hPool

/-- A move is the section of the pool that it enters, or leaves the pool as it is. -/
theorem pool_step? {move : Move Env Result} (h : x.step? release move = some y) :
    match move.event? with
    | some event => Pool.Step x.tasks.pool event y.tasks.pool
    | none => y.tasks.pool = x.tasks.pool := by
  cases move with
  | lock | beginShutdown | takeWorkers | join => exact pool_enter? h
  | submit job awaited notified =>
      obtain ⟨tasks, hTasks, rfl⟩ := Option.map_eq_some_iff.1 h
      obtain ⟨pool, hPool, rfl⟩ := Option.map_eq_some_iff.1 hTasks
      exact State.step_of_enqueue? hPool
  | clear call =>
      obtain ⟨⟨count, tasks⟩, hTasks, rfl⟩ := Option.map_eq_some_iff.1 h
      obtain ⟨pool, hPool, hClear⟩ := Option.map_eq_some_iff.1 hTasks
      cases hClear
      exact State.step_of_clear? hPool
  | work worker =>
      rw [step?, work?] at h
      split at h
      · split at h
        · split at h
          · cases h
          · cases h
            exact Tasks.pool_leave ..
        · cases h
      · cases h
  | finish worker =>
      rw [step?, finish?] at h
      split at h
      · split at h
        · obtain ⟨pool, hPool, rfl⟩ := Option.map_eq_some_iff.1 h
          exact State.step_of_finish? hPool
        · cases h
      · cases h
  | look task =>
      obtain ⟨slot, hSlot, hHeld⟩ := exists_of_look? h
      rw [step?, look?_eq hSlot hHeld] at h
      cases h
      rfl
  | wait task =>
      obtain ⟨slot, hSlot, hHeld⟩ := exists_of_wait? h
      rw [step?, wait?_eq hSlot hHeld] at h
      split at h
      · cases h
      · cases h
        exact Tasks.pool_forget ..
  | forget task =>
      rw [step?, forget?] at h
      split at h
      · cases h
        exact Tasks.pool_forget ..
      · cases h
  | surround env =>
      cases h
      rfl

/-- What holds of a pool and is kept by the section that a move enters holds afterwards. -/
theorem pool_invariant {P : State → Prop} {move : Move Env Result}
    (h : x.step? release move = some y) (hBefore : P x.tasks.pool)
    (hSection : ∀ {event t}, move.event? = some event → Pool.Step x.tasks.pool event t → P t) :
    P y.tasks.pool := by
  have hPool := pool_step? h
  cases hEvent : move.event? with
  | none =>
      rw [hEvent] at hPool
      exact hPool ▸ hBefore
  | some event =>
      rw [hEvent] at hPool
      exact hSection hEvent hPool

/-- A task that does its work and ends, with nothing in between, does what `Tasks.finish?` says. -/
theorem finish?_work? {worker : Nat} (hNew : ∀ task,
    x.tasks.pool.workers[worker]? = some (.running task) → x.hasWorked task = false) :
    ((x.work? release worker).bind (·.finish? worker)).map (·.tasks) =
      (x.tasks.finish? release worker).map (·.2) := by
  cases hAt : x.tasks.pool.workers[worker]? with
  | none => simp [work?, Tasks.finish?, hAt]
  | some w =>
      cases w with
      | ready | waiting | notified | exited => simp [work?, Tasks.finish?, hAt]
      | running task =>
          cases hJob : x.tasks.jobs[task]? with
          | none => simp [work?, Tasks.finish?, hAt, hJob]
          | some job =>
              have hWorks := hNew task hAt
              cases hStops : x.tasks.pool.stopsItself worker with
              | true => simp [work?, Tasks.finish?, State.finish?, hAt, hJob, hStops]
              | false =>
                  cases hEnds : job.canEnd x.tasks.env with
                  | false => simp [work?, Tasks.finish?, State.finish?, hAt, hJob, hStops, hEnds]
                  | true =>
                      simp [work?, Tasks.finish?, State.finish?, finish?, hAt, hJob, hWorks,
                        hStops, hEnds, Tasks.pool_leave, hasWorked_concat, Tasks.settleSlot_eq]
                      exact congrArg (Tasks.close task)
                        (Tasks.leave_with_pool release task _ { x.tasks with env := _ } _).symm

end Exchange

end ShaderBackend.Pool
